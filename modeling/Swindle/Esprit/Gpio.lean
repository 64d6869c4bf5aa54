import Mathlib.Logic.Function.Basic
import Swindle.Machine.Field
import Swindle.Machine.Run

/-! The GPIO driver: eighty pins behind the registers of five ports. -/
namespace Swindle
open Machine

/-- `PA0` to `PE15`. -/
abbrev LnPin := Fin 80

namespace LnPin

def port (p : LnPin) : Fin 5 := ⟨p.val / 16, by omega⟩

def bit (p : LnPin) : ℕ := p.val % 16

theorem bit_lt (p : LnPin) : p.bit < 16 := Nat.mod_lt _ (by decide)

theorem eq_of_port_bit {p q : LnPin} (hport : p.port = q.port) (hbit : p.bit = q.bit) : p = q := by
  have hdiv : p.val / 16 = q.val / 16 := congrArg Fin.val hport
  have hmod : p.val % 16 = q.val % 16 := hbit
  exact Fin.ext (by omega)

end LnPin

inductive LnGpioMode
  | lnFloating | lnInputFloating | lnInputPullup | lnInputPulldown | lnOutput | lnOutputOpenDrain
  | lnAlternatePp | lnAlternateOd | lnPwm | lnAdcMode | lnDacMode | lnUart | lnSpiMode | lnUartAlt
  deriving DecidableEq, Repr

/-- The registers of a port that hold state. ISTAT shows the pins, BOP acts on OCTL. -/
@[ext] structure LnGpio where
  ctl0 : BitVec 32
  ctl1 : BitVec 32
  octl : BitVec 32
  deriving DecidableEq, Repr

abbrev Gpios := Fin 5 → LnGpio

/-- A store to BOP: the low half sets bits of OCTL, and the high half clears those that the low
half does not set. -/
def LnGpio.bop (v : BitVec 32) (g : LnGpio) : LnGpio :=
  { g with octl := (g.octl &&& ~~~(v >>> 16)) ||| (v &&& 0xFFFF#32) }

/-- Two locals of `lnPinMode` are read before they are set. -/
structure Unset where
  speed : BitVec 32
  value : BitVec 32

def lnGpioSet (md ctl : BitVec 32) : BitVec 32 := (ctl <<< 2) + md

def pinSpeed (u : Unset) (speedInMhz : BitVec 32) : BitVec 32 :=
  if speedInMhz = 0#32 ∨ 50#32 ≤ u.speed then 3#32
  else if 10#32 ≤ speedInMhz then 1#32
  else 2#32

/-- The `switch` of `lnPinMode`. -/
def pinValue (u : Unset) (speed : BitVec 32) : LnGpioMode → Option (BitVec 32)
  | .lnDacMode | .lnAdcMode => some (lnGpioSet 0#32 0#32)
  | .lnFloating | .lnInputFloating => some (lnGpioSet 0#32 1#32)
  | .lnInputPullup | .lnInputPulldown => some (lnGpioSet 0#32 2#32)
  | .lnOutput => some (lnGpioSet speed 0#32)
  | .lnOutputOpenDrain => some (lnGpioSet speed 1#32)
  | .lnSpiMode => some u.value
  | .lnPwm | .lnAlternatePp => some (lnGpioSet speed 2#32)
  | .lnAlternateOd => some (lnGpioSet speed 3#32)
  -- xAssert(0)
  | .lnUart | .lnUartAlt => none

def LnGpio.pull (pin : ℕ) (g : LnGpio) : LnGpioMode → LnGpio
  | .lnInputPullup => g.bop (1#32 <<< pin)
  | .lnInputPulldown => g.bop (1#32 <<< (16 + pin))
  | _ => g

def LnGpio.setCtl (pin : ℕ) (value : BitVec 32) (g : LnGpio) : LnGpio :=
  if 7 < pin then { g with ctl1 := putField 4 (pin &&& 7) value g.ctl1 }
  else { g with ctl0 := putField 4 pin value g.ctl0 }

def lnPinMode (u : Unset) (xpin : LnPin) (mode : LnGpioMode) (speedInMhz : BitVec 32)
    (g : Gpios) : Option Gpios :=
  (pinValue u (pinSpeed u speedInMhz) mode).map fun value =>
    Function.update g xpin.port (((g xpin.port).pull xpin.bit mode).setCtl xpin.bit value)

def lnDigitalWrite (pin : LnPin) (value : Bool) (g : Gpios) : Gpios :=
  Function.update g pin.port
    ((g pin.port).bop ((if value then 1#32 else 1#32 <<< 16) <<< pin.bit))

def lnOpenDrainClose (pin : LnPin) (close : Bool) (g : Gpios) : Gpios :=
  lnDigitalWrite pin (!close) g

def lnDigitalToggle (pin : LnPin) (g : Gpios) : Gpios :=
  Function.update g pin.port
    { g pin.port with octl := (g pin.port).octl ^^^ 1#32 <<< pin.bit }

def lnDigitalRead (istat : Fin 5 → BitVec 32) (pin : LnPin) : Bool :=
  istat pin.port &&& 1#32 <<< pin.bit ≠ 0#32

/-- `lnFastIO`, once its constructor has made the pin an output. -/
structure LnFastIo where
  port : Fin 5
  onbit : BitVec 32
  offbit : BitVec 32

namespace LnFastIo

def ofPin (pin : LnPin) : LnFastIo where
  port := pin.port
  onbit := 1#32 <<< pin.bit
  offbit := (1#32 <<< pin.bit) <<< 16

def on (f : LnFastIo) (g : Gpios) : Gpios := Function.update g f.port ((g f.port).bop f.onbit)

def off (f : LnFastIo) (g : Gpios) : Gpios := Function.update g f.port ((g f.port).bop f.offbit)

end LnFastIo

inductive GpioCall
  | lnPinMode (u : Unset) (pin : LnPin) (mode : LnGpioMode) (speedInMhz : BitVec 32)
  | lnDigitalWrite (pin : LnPin) (value : Bool)
  | lnOpenDrainClose (pin : LnPin) (close : Bool)
  | lnDigitalToggle (pin : LnPin)
  | fastOn (pin : LnPin)
  | fastOff (pin : LnPin)

namespace GpioCall

/-- `none` once an assertion has failed. -/
def perform (g : Option Gpios) : GpioCall → Option Gpios
  | lnPinMode u pin mode speed => g.bind (Swindle.lnPinMode u pin mode speed)
  | lnDigitalWrite pin v => g.map (Swindle.lnDigitalWrite pin v)
  | lnOpenDrainClose pin close => g.map (Swindle.lnOpenDrainClose pin close)
  | lnDigitalToggle pin => g.map (Swindle.lnDigitalToggle pin)
  | fastOn pin => g.map (LnFastIo.ofPin pin).on
  | fastOff pin => g.map (LnFastIo.ofPin pin).off

def pin : GpioCall → LnPin
  | lnPinMode _ p _ _ => p
  | lnDigitalWrite p _ => p
  | lnOpenDrainClose p _ => p
  | lnDigitalToggle p => p
  | fastOn p => p
  | fastOff p => p

end GpioCall

/-! What the calls mean: every pin has a mode and an output level of its own. -/

@[ext] structure PinState where
  config : BitVec 4
  level : Bool
  deriving DecidableEq, Repr

/-- Modes that have a configuration of their own. -/
def LnGpioMode.config (speed : BitVec 4) : LnGpioMode → BitVec 4
  | .lnFloating | .lnInputFloating => 4#4
  | .lnInputPullup | .lnInputPulldown => 8#4
  | .lnOutput => speed
  | .lnOutputOpenDrain => 4#4 ||| speed
  | .lnAlternatePp | .lnPwm => 8#4 ||| speed
  | .lnAlternateOd => 12#4 ||| speed
  | _ => 0#4

/-- The pull of an input is its output level. -/
def LnGpioMode.level (before : Bool) : LnGpioMode → Bool
  | .lnInputPullup => true
  | .lnInputPulldown => false
  | _ => before

namespace GpioCall

def onPin (s : PinState) : GpioCall → PinState
  | lnPinMode u _ mode speed => ⟨mode.config ((pinSpeed u speed).setWidth 4), mode.level s.level⟩
  | lnDigitalWrite _ v => { s with level := v }
  | lnOpenDrainClose _ close => { s with level := !close }
  | lnDigitalToggle _ => { s with level := !s.level }
  | fastOn _ => { s with level := true }
  | fastOff _ => { s with level := false }

def onPins (s : LnPin → PinState) (call : GpioCall) : LnPin → PinState :=
  Function.update s call.pin (call.onPin (s call.pin))

/-- The modes that the driver knows. For `lnSPI_MODE` it stores a local that it has not set. -/
def Supported : GpioCall → Prop
  | lnPinMode _ _ mode _ => mode ≠ .lnUart ∧ mode ≠ .lnUartAlt ∧ mode ≠ .lnSpiMode
  | _ => True

instance : DecidablePred Supported := fun call => by
  cases call <;> unfold Supported <;> infer_instance

end GpioCall

def Gpios.pin (g : Gpios) (p : LnPin) : PinState where
  config :=
    if 7 < p.bit then field 4 (p.bit &&& 7) (g p.port).ctl1 else field 4 p.bit (g p.port).ctl0
  level := (g p.port).octl.getLsbD p.bit

/-! The stores to one port. -/

section Port

variable {g : LnGpio} {a b : ℕ}

theorem getLsbD_one_shift (ha : a < 32) (n : ℕ) : (1#32 <<< a).getLsbD n = decide (n = a) := by
  rw [BitVec.getLsbD_shiftLeft, BitVec.getLsbD_one]
  by_cases h : n = a
  · simp [h, ha]
  · by_cases hlt : n < a
    · simp [h, hlt]
    · have hsub : n - a ≠ 0 := by omega
      simp [h, hsub]

theorem bop_octl (v : BitVec 32) {n : ℕ} (hn : n < 16) :
    (g.bop v).octl.getLsbD n = (v.getLsbD n || g.octl.getLsbD n && !v.getLsbD (16 + n)) := by
  have hmask : (0xFFFF#32).getLsbD n = true := by
    have h16 : (0xFFFF#32 : BitVec 32) = BitVec.ofNat 32 (2 ^ 16 - 1) := rfl
    rw [h16, BitVec.getLsbD_ofNat, Nat.testBit_two_pow_sub_one]
    simp [hn, show n < 32 by omega]
  have hlt : n < 32 := by omega
  simp only [LnGpio.bop, BitVec.getLsbD_or, BitVec.getLsbD_and, BitVec.getLsbD_not,
    BitVec.getLsbD_ushiftRight, hmask, hlt, decide_true, Bool.true_and, Bool.and_true]
  exact Bool.or_comm _ _

theorem bop_one (ha : a < 16) (hb : b < 16) :
    (g.bop (1#32 <<< a)).octl.getLsbD b = (decide (b = a) || g.octl.getLsbD b) := by
  rw [bop_octl _ hb, getLsbD_one_shift (by omega), getLsbD_one_shift (by omega)]
  simp [show 16 + b ≠ a by omega]

theorem bop_high (ha : a < 16) (hb : b < 16) :
    (g.bop (1#32 <<< (16 + a))).octl.getLsbD b = (!decide (b = a) && g.octl.getLsbD b) := by
  rw [bop_octl _ hb, getLsbD_one_shift (by omega), getLsbD_one_shift (by omega)]
  simp [show b ≠ 16 + a by omega, Bool.and_comm]

@[simp] theorem bop_ctl0 (v : BitVec 32) : (g.bop v).ctl0 = g.ctl0 := rfl

@[simp] theorem bop_ctl1 (v : BitVec 32) : (g.bop v).ctl1 = g.ctl1 := rfl

@[simp] theorem pull_ctl0 (mode : LnGpioMode) : (g.pull a mode).ctl0 = g.ctl0 := by
  cases mode <;> rfl

@[simp] theorem pull_ctl1 (mode : LnGpioMode) : (g.pull a mode).ctl1 = g.ctl1 := by
  cases mode <;> rfl

@[simp] theorem setCtl_octl (v : BitVec 32) : (g.setCtl a v).octl = g.octl := by
  unfold LnGpio.setCtl
  split <;> rfl

theorem pull_level (ha : a < 16) (hb : b < 16) (mode : LnGpioMode) :
    (g.pull a mode).octl.getLsbD b =
      if b = a then mode.level (g.octl.getLsbD a) else g.octl.getLsbD b := by
  cases mode
  case lnInputPullup =>
    rw [LnGpio.pull, bop_one ha hb]
    by_cases h : b = a <;> simp [h, LnGpioMode.level]
  case lnInputPulldown =>
    rw [LnGpio.pull, bop_high ha hb]
    by_cases h : b = a <;> simp [h, LnGpioMode.level]
  all_goals
    by_cases h : b = a <;> simp [h, LnGpio.pull, LnGpioMode.level]

end Port

def LnGpio.config (g : LnGpio) (b : ℕ) : BitVec 4 :=
  if 7 < b then field 4 (b &&& 7) g.ctl1 else field 4 b g.ctl0

theorem pin_eq (g : Gpios) (p : LnPin) :
    g.pin p = ⟨(g p.port).config p.bit, (g p.port).octl.getLsbD p.bit⟩ := rfl

section Config

variable {g : LnGpio} {a b : ℕ} {v : BitVec 32}

theorem and_seven (h : a < 16) : 7 < a → a &&& 7 = a - 8 := by
  intro hlt
  have hmod : a &&& 7 = a % 8 := Nat.and_two_pow_sub_one_eq_mod a 3
  omega

theorem setCtl_config (hv : v.toNat < 2 ^ 4) (ha : a < 16) (hb : b < 16) :
    (g.setCtl a v).config b = if b = a then v.setWidth 4 else g.config b := by
  unfold LnGpio.setCtl LnGpio.config
  by_cases hhi : 7 < a
  · rw [if_pos hhi]
    by_cases hbhi : 7 < b
    · rw [if_pos hbhi, if_pos hbhi, and_seven ha hhi, and_seven hb hbhi]
      by_cases h : b = a
      · rw [if_pos h, h, field_putField_self (by omega)]
      · rw [if_neg h, field_putField_of_ne hv (by omega)]
    · rw [if_neg hbhi, if_neg hbhi, if_neg (by omega)]
  · rw [if_neg hhi]
    by_cases hbhi : 7 < b
    · rw [if_pos hbhi, if_pos hbhi, if_neg (by omega)]
    · rw [if_neg hbhi, if_neg hbhi]
      by_cases h : b = a
      · rw [if_pos h, h, field_putField_self (by omega)]
      · rw [if_neg h, field_putField_of_ne hv fun hz => h hz.symm]

theorem pinSpeed_cases (u : Unset) (s : BitVec 32) :
    pinSpeed u s = 1#32 ∨ pinSpeed u s = 2#32 ∨ pinSpeed u s = 3#32 := by
  unfold pinSpeed
  split_ifs <;> simp

theorem pinValue_eq (u : Unset) (s : BitVec 32) {mode : LnGpioMode}
    (h : mode ≠ .lnUart ∧ mode ≠ .lnUartAlt ∧ mode ≠ .lnSpiMode) :
    ∃ v, pinValue u (pinSpeed u s) mode = some v ∧ v.toNat < 2 ^ 4 ∧
      v.setWidth 4 = mode.config ((pinSpeed u s).setWidth 4) := by
  obtain ⟨h1, h2, h3⟩ := h
  rcases pinSpeed_cases u s with hs | hs | hs <;> rw [hs] <;>
    cases mode <;> first | contradiction | exact ⟨_, rfl, by decide, by decide⟩

end Config

/-! The calls, pin by pin. -/

section Calls

variable {g : Gpios} {call : GpioCall}

theorem pin_update (port : Fin 5) (r : LnGpio) (p : LnPin) :
    Gpios.pin (Function.update g port r) p =
      if p.port = port then ⟨r.config p.bit, r.octl.getLsbD p.bit⟩ else g.pin p := by
  rw [pin_eq, pin_eq, Function.update_apply]
  split <;> rfl

theorem level_update {q : LnPin} {r : LnGpio} {l : Bool}
    (hconfig : ∀ b < 16, r.config b = (g q.port).config b)
    (hlevel : ∀ b < 16, r.octl.getLsbD b = if b = q.bit then l else (g q.port).octl.getLsbD b)
    (p : LnPin) :
    Gpios.pin (Function.update g q.port r) p =
      Function.update g.pin q { g.pin q with level := l } p := by
  rw [pin_update, Function.update_apply]
  by_cases hport : p.port = q.port
  · rw [if_pos hport, hconfig _ p.bit_lt, hlevel _ p.bit_lt]
    by_cases hbit : p.bit = q.bit
    · rw [if_pos hbit, if_pos (LnPin.eq_of_port_bit hport hbit), hbit]
      rfl
    · have hne : p ≠ q := fun hz => hbit (congrArg LnPin.bit hz)
      rw [if_neg hbit, if_neg hne, pin_eq, hport]
  · have hne : p ≠ q := fun hz => hport (congrArg LnPin.port hz)
    rw [if_neg hport, if_neg hne]

theorem write_pins (q : LnPin) (v : Bool) (p : LnPin) :
    (lnDigitalWrite q v g).pin p = Function.update g.pin q { g.pin q with level := v } p := by
  apply level_update
  · exact fun _ _ => rfl
  · intro b hb
    cases v with
    | true =>
      rw [if_pos rfl, bop_one q.bit_lt hb]
      by_cases h : b = q.bit <;> simp [h]
    | false =>
      rw [if_neg Bool.false_ne_true, ← BitVec.shiftLeft_add, bop_high q.bit_lt hb]
      by_cases h : b = q.bit <;> simp [h]

theorem fastIo_eq (q : LnPin) :
    (LnFastIo.ofPin q).on g = lnDigitalWrite q true g ∧
      (LnFastIo.ofPin q).off g = lnDigitalWrite q false g := by
  constructor
  · rfl
  · unfold LnFastIo.off LnFastIo.ofPin lnDigitalWrite
    dsimp only
    rw [if_neg Bool.false_ne_true, ← BitVec.shiftLeft_add, ← BitVec.shiftLeft_add, Nat.add_comm]

theorem toggle_pins (q p : LnPin) :
    (lnDigitalToggle q g).pin p =
      Function.update g.pin q { g.pin q with level := !(g.pin q).level } p := by
  apply level_update
  · exact fun _ _ => rfl
  · intro b hb
    have hq := q.bit_lt
    rw [BitVec.getLsbD_xor, getLsbD_one_shift (by omega)]
    by_cases h : b = q.bit
    · simp [h, pin_eq]
    · simp [h]

theorem mode_pins (u : Unset) (q : LnPin) {mode : LnGpioMode} (speed : BitVec 32)
    (h : mode ≠ .lnUart ∧ mode ≠ .lnUartAlt ∧ mode ≠ .lnSpiMode) :
    ∃ g', lnPinMode u q mode speed g = some g' ∧ ∀ p, g'.pin p = Function.update g.pin q
      ⟨mode.config ((pinSpeed u speed).setWidth 4), mode.level (g.pin q).level⟩ p := by
  obtain ⟨v, hv, hfits, hwidth⟩ := pinValue_eq u speed h
  refine ⟨_, by rw [lnPinMode, hv]; rfl, fun p => ?_⟩
  have hkeep (b : ℕ) : ((g q.port).pull q.bit mode).config b = (g q.port).config b := by
    simp [LnGpio.config]
  rw [pin_update, Function.update_apply, setCtl_config hfits q.bit_lt p.bit_lt, setCtl_octl,
    pull_level q.bit_lt p.bit_lt, hwidth, hkeep]
  by_cases hport : p.port = q.port
  · rw [if_pos hport]
    by_cases hbit : p.bit = q.bit
    · rw [if_pos hbit, if_pos hbit, if_pos (LnPin.eq_of_port_bit hport hbit), pin_eq]
    · have hne : p ≠ q := fun hz => hbit (congrArg LnPin.bit hz)
      rw [if_neg hbit, if_neg hbit, if_neg hne, pin_eq, hport]
  · have hne : p ≠ q := fun hz => hport (congrArg LnPin.port hz)
    rw [if_neg hport, if_neg hne]

theorem call_pins (h : call.Supported) :
    ∃ g', call.perform (some g) = some g' ∧ g'.pin = call.onPins g.pin := by
  cases call with
  | lnPinMode u q mode speed =>
    obtain ⟨g', hg', hpins⟩ := mode_pins (g := g) u q speed h
    exact ⟨g', hg', funext hpins⟩
  | lnDigitalWrite q v => exact ⟨_, rfl, funext (write_pins q v)⟩
  | lnOpenDrainClose q close => exact ⟨_, rfl, funext (write_pins q (!close))⟩
  | lnDigitalToggle q => exact ⟨_, rfl, funext (toggle_pins q)⟩
  | fastOn q => exact ⟨_, congrArg some (fastIo_eq q).1, funext (write_pins q true)⟩
  | fastOff q => exact ⟨_, congrArg some (fastIo_eq q).2, funext (write_pins q false)⟩

end Calls

/-- The registers of the five ports are eighty independent pins: after any sequence of calls, each
pin has the mode and the level that the calls on that pin alone give it, in the order they
were made. -/
theorem gpio_refines (g : Gpios) {calls : List GpioCall} (h : ∀ call ∈ calls, call.Supported) :
    ∃ g', run GpioCall.perform (some g) calls = some g' ∧
      ∀ p, g'.pin p = ((calls.filter fun call => call.pin = p).foldl GpioCall.onPin (g.pin p)) := by
  induction calls generalizing g with
  | nil => exact ⟨g, rfl, fun _ => rfl⟩
  | cons call calls ih =>
    obtain ⟨hcall, hcalls⟩ := List.forall_mem_cons.mp h
    obtain ⟨g₁, hg₁, hpins⟩ := call_pins (g := g) hcall
    obtain ⟨g', hg', hend⟩ := ih g₁ hcalls
    refine ⟨g', ?_, fun p => ?_⟩
    · rw [run_cons, hg₁, hg']
    · rw [hend, hpins, GpioCall.onPins, Function.update_apply, List.filter_cons]
      by_cases hp : call.pin = p
      · simp [hp]
      · have hp' : p ≠ call.pin := fun hz => hp hz.symm
        simp [hp, hp']

/-- A pull-up, and a pulse on the pin beside it in the same port. -/
theorem gpio_refines_pulse :
    let u : Unset := ⟨0#32, 0#32⟩
    let calls : List GpioCall := [.lnPinMode u 30 .lnInputPullup 0#32,
      .lnPinMode u 29 .lnOutput 10#32, .lnDigitalToggle 29, .fastOff 29]
    let g : Gpios := fun _ => ⟨0x44444444#32, 0x44444444#32, 0#32⟩
    ∃ g', run GpioCall.perform (some g) calls = some g' ∧
      ∀ p, g'.pin p =
        ((calls.filter fun call => call.pin = p).foldl GpioCall.onPin (g.pin p)) := by
  intro u calls g
  exact gpio_refines g (by decide)

end Swindle
