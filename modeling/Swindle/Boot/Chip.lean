import Swindle.Esprit.Gpio
import Swindle.Machine.Straight
import Swindle.Stage2

/-! Stage 2 before its loop: the registers that start-up works on, what the oscillators and the
tick interrupt do to them, and the program from `setupForUsb` to the loop of `runDfu`. -/
namespace Swindle
open Machine

def pa0 : LnPin := 0
def pa8 : LnPin := 8
def pa12 : LnPin := 12
def pb13 : LnPin := 29
def pb14 : LnPin := 30
def pc13 : LnPin := 45

/-- The last two fields are kept by this model only: all ticks, and the ticks with D+ low. -/
structure Chip where
  ctl : BitVec 32
  cfg0 : BitVec 32
  addctl : BitVec 32
  apb1en : BitVec 32
  apb2en : BitVec 32
  apb1rst : BitVec 32
  apb2rst : BitVec 32
  ws : BitVec 32
  gpio : Gpios
  usb : Usb
  systickCtrl : BitVec 32
  systickLoad : BitVec 32
  systickVal : BitVec 32
  sysTick : BitVec 32
  /-- The local of `xDelay`. -/
  tgt : BitVec 32
  ticks : ℕ
  low : ℕ

/-- What happens beside the program. An oscillator becomes ready at some time after it has been
enabled, the status bits of the clock switch follow it, and the timer interrupts. -/
inductive Hardware
  | oscillators (ctl addctl : BitVec 32)
  | switch (v : BitVec 32)
  | tick

/-- Each ready bit stands one above its enable bit. -/
def readyBits (mask v r : BitVec 32) : BitVec 32 :=
  (r &&& ~~~mask) ||| (mask &&& (r <<< 1) &&& (r ||| v))

namespace Chip

/-- PA12 is an output, and low. -/
def dPlusLow (c : Chip) : Prop :=
  (c.gpio.pin pa12).config &&& 3#4 ≠ 0#4 ∧ (c.gpio.pin pa12).level = false

instance (c : Chip) : Decidable c.dPlusLow := inferInstanceAs (Decidable (_ ∧ _))

def hardware (c : Chip) : Hardware → Chip
  | .oscillators v w =>
    { c with
      ctl := readyBits 0x02020002#32 v c.ctl
      addctl := readyBits 0x00020000#32 w c.addctl }
  | .switch v => { c with cfg0 := (c.cfg0 &&& ~~~0xC#32) ||| (v &&& 0xC#32) }
  | .tick =>
    if c.systickCtrl = 7#32 then
      { c with
        sysTick := c.sysTick + 1#32
        ticks := c.ticks + 1
        low := if c.dPlusLow then c.low + 1 else c.low }
    else c

/-! The clock tree, in kHz. -/

/-- PLLMF has its most significant bit apart. -/
def pllMul (c : Chip) : ℕ :=
  let v := (c.cfg0.extractLsb' 18 4).toNat + if c.cfg0.getLsbD 27 then 16 else 0
  if v < 15 then v + 2 else v + 1

def pllKhz (c : Chip) : ℕ :=
  c.pllMul * if c.cfg0.getLsbD 16 then if c.cfg0.getLsbD 17 then 4000 else 8000 else 4000

def sysKhz (c : Chip) : ℕ := if c.cfg0 &&& 3#32 = 2#32 then c.pllKhz else 8000

/-- The dividers are 1.5, 1, 2.5 and 2. -/
def usbKhz (c : Chip) : ℕ :=
  if c.addctl.getLsbD 0 then 48000
  else
    match (c.cfg0.extractLsb' 22 2).toNat with
    | 0 => 2 * c.pllKhz / 3
    | 1 => c.pllKhz
    | 2 => 2 * c.pllKhz / 5
    | _ => c.pllKhz / 2

/-! Accesses. A port and the USB peripheral take no store while their clock is off. -/

def modifyPins (pin : LnPin) (f : Gpios → Gpios) (c : Chip) : Chip :=
  if c.apb2en.getLsbD (2 + pin.port.val) then { c with gpio := f c.gpio } else c

/-- With the default argument for the speed. -/
def pinMode (u : Unset) (pin : LnPin) (mode : LnGpioMode) : Chip → Chip :=
  modifyPins pin fun g => (lnPinMode u pin mode 0#32 g).getD g

def digitalWrite (pin : LnPin) (v : Bool) : Chip → Chip := modifyPins pin (lnDigitalWrite pin v)

/-- `*reg = f(*reg)` on a register of the USB peripheral. -/
def modifyUsb (off : ℕ) (f : BitVec 16 → BitVec 16) (c : Chip) : Chip :=
  if c.apb1en.getLsbD 23 then { c with usb := c.usb.setReg off (f (c.usb.reg off)) } else c

/-- The USB registers in reset: powered down, everything else zero. -/
def usbReset (u : Usb) : Usb :=
  { u with reg := fun i => if i = usbCntrReg then 3#16 else 0#16 }

/-- The chip in reset: the internal oscillator runs, and the pins float. -/
def atReset : Chip where
  ctl := 0x83#32
  cfg0 := 0#32
  addctl := 0#32
  apb1en := 0#32
  apb2en := 0#32
  apb1rst := 0#32
  apb2rst := 0#32
  ws := 0x30#32
  gpio := fun _ => ⟨0x44444444#32, 0x44444444#32, 0#32⟩
  usb := usbReset (State.start (fun _ => 0#8) fun _ => 0#8).usb
  systickCtrl := 0#32
  systickLoad := 0#32
  systickVal := 0#32
  sysTick := 0#32
  tgt := 0#32
  ticks := 0
  low := 0

def putApb1rst (v : BitVec 32) (c : Chip) : Chip :=
  { c with apb1rst := v, usb := if v.getLsbD 23 then usbReset c.usb else c.usb }

end Chip

/-! `lnRCU.cpp`. -/

inductive Peripherals
  | pGpioa | pGpiob | pGpioc | pAf | pUsb
  deriving DecidableEq, Repr

inductive RcuAction
  | rcuReset | rcuEnable | rcuDisable

def Peripherals.enableBit : Peripherals → BitVec 32
  | .pGpioa => 1#32 <<< 2
  | .pGpiob => 1#32 <<< 3
  | .pGpioc => 1#32 <<< 4
  | .pAf => 1#32 <<< 0
  | .pUsb => 1#32 <<< 23

def Peripherals.isApb1 : Peripherals → Bool
  | .pUsb => true
  | _ => false

def rcuAction (periph : Peripherals) : RcuAction → List (Instr Chip)
  | .rcuReset =>
    if periph.isApb1 then
      [.act fun c => c.putApb1rst (c.apb1rst ||| periph.enableBit),
        .act fun c => c.putApb1rst (c.apb1rst &&& ~~~periph.enableBit)]
    else
      [.act fun c => { c with apb2rst := c.apb2rst ||| periph.enableBit },
        .act fun c => { c with apb2rst := c.apb2rst &&& ~~~periph.enableBit }]
  | .rcuEnable =>
    if periph.isApb1 then [.act fun c => { c with apb1en := c.apb1en ||| periph.enableBit }]
    else [.act fun c => { c with apb2en := c.apb2en ||| periph.enableBit }]
  | .rcuDisable =>
    if periph.isApb1 then [.act fun c => { c with apb1en := c.apb1en &&& ~~~periph.enableBit }]
    else [.act fun c => { c with apb2en := c.apb2en &&& ~~~periph.enableBit }]

/-! `clocking.h`. -/

def rccCrHseon : BitVec 32 := 1#32 <<< 16
def rccCrHserdy : BitVec 32 := 1#32 <<< 17
def rccCrPllon : BitVec 32 := 1#32 <<< 24
def rccCrPllrdy : BitVec 32 := 1#32 <<< 25

/-- AHB and APB2 undivided, APB1 by 2, ADC by 8, and nine times the source. -/
def rccCfgr (pllsrc : BitVec 32) : BitVec 32 :=
  (0x0#32 <<< 4) ||| (0x4#32 <<< 8) ||| (0x0#32 <<< 11) ||| (0x3#32 <<< 14) ||| (0x7#32 <<< 18) |||
    (pllsrc <<< 16) ||| (0x0#32 <<< 17)

/-- What the two set-ups share. -/
def clockSetupPll (pllsrc : BitVec 32) : List (Instr Chip) :=
  [.act fun c => { c with cfg0 := (c.cfg0 &&& 0xFF00000F#32) ||| rccCfgr pllsrc },
    .act fun c => { c with ws := (c.ws &&& ~~~7#32) ||| 2#32 },
    .act fun c => { c with ctl := c.ctl ||| rccCrPllon },
    .wait fun c => c.ctl &&& rccCrPllrdy ≠ 0#32,
    .act fun c => { c with cfg0 := (c.cfg0 &&& ~~~3#32) ||| 2#32 }]

def clockSetupInHse8mhzOut72mhz : List (Instr Chip) :=
  [.act fun c => { c with ctl := c.ctl ||| rccCrHseon },
    .wait fun c => c.ctl &&& rccCrHserdy ≠ 0#32] ++ clockSetupPll 1#32

def clockSetupInHsi48mhz : List (Instr Chip) :=
  clockSetupPll 0#32 ++
    [.act fun c => { c with addctl := c.addctl ||| 1#32 <<< 16 },
      .wait fun c => c.addctl &&& 1#32 <<< 17 ≠ 0#32,
      .act fun c => { c with addctl := c.addctl ||| 1#32 <<< 0 }]

/-! `dfu.cpp` and `usb.cpp`. -/

def configSystickClockHz (crystalless : Bool) : BitVec 32 :=
  if crystalless then 36000000#32 else 72000000#32

def startSystick (crystalless : Bool) : List (Instr Chip) :=
  [.act fun c => { c with sysTick := 0#32 },
    .act fun c => { c with systickCtrl := 0#32 },
    .act fun c => { c with systickVal := 0#32 },
    .act fun c => { c with systickLoad := configSystickClockHz crystalless / 1000#32 - 1#32 },
    .act fun c => { c with systickCtrl := 7#32 }]

/-- What follows the clocks in `setupForUsb`. -/
def enablePeripherals (crystalless : Bool) : List (Instr Chip) :=
  rcuAction .pGpioa .rcuEnable ++ rcuAction .pGpiob .rcuEnable ++
    rcuAction .pGpioc .rcuEnable ++ rcuAction .pAf .rcuEnable ++ startSystick crystalless ++
    rcuAction .pUsb .rcuEnable ++ [.act (Chip.modifyUsb usbCntrReg fun _ => 2#16)]

def setupForUsb (crystalless : Bool) : List (Instr Chip) :=
  (if crystalless then clockSetupInHsi48mhz else clockSetupInHse8mhzOut72mhz) ++
    enablePeripherals crystalless

def xDelay (ms : BitVec 32) : List (Instr Chip) :=
  [.act fun c => { c with tgt := c.sysTick + ms }, .wait fun c => c.tgt < c.sysTick]

/-- D+ is dragged low. -/
def disconnect (u : Unset) : List (Instr Chip) :=
  [.act (Chip.pinMode u pa12 .lnOutput), .act (Chip.digitalWrite pa12 false)] ++ xDelay 300#32 ++
    [.act (Chip.digitalWrite pa12 true), .act (Chip.pinMode u pa12 .lnInputFloating)]

def usbInit : List (Instr Chip) :=
  rcuAction .pUsb .rcuEnable ++ rcuAction .pUsb .rcuReset ++
    [.act (Chip.modifyUsb usbCntrReg (· &&& ~~~2#16)),
      .act (Chip.modifyUsb usbCntrReg (· &&& ~~~1#16)),
      .act (Chip.modifyUsb usbCntrReg fun _ => 0#16),
      .act (Chip.modifyUsb usbBtableReg fun _ => 0#16),
      .act (Chip.modifyUsb usbIstrReg fun _ => 0#16),
      .act (Chip.modifyUsb usbCntrReg fun _ => 0x0400#16 ||| 0x8000#16 ||| 0x0800#16 ||| 0x1000#16)]

def led (crystalless : Bool) : LnPin := if crystalless then pa0 else pc13

def leds (crystalless : Bool) (u : Unset) : List (Instr Chip) :=
  [.act (Chip.pinMode u (led crystalless) .lnOutput), .act (Chip.pinMode u pa8 .lnOutput),
    .act (Chip.pinMode u pb13 .lnOutput)]

/-- `stage2_entry` up to the loop of `runDfu`. -/
def stage2Setup (crystalless : Bool) (u : Unset) : List (Instr Chip) :=
  setupForUsb crystalless ++ (disconnect u ++ (usbInit ++ leds crystalless u))

end Swindle
