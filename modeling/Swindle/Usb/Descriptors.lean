import Swindle.Device
import Mathlib.Data.Int.Notation

/-! The descriptors of `usb.cpp` and the strings of `dfu_name.h`, as the bytes sent. -/
namespace Swindle

def usbDtDevice : ℕ := 1
def usbDtConfiguration : ℕ := 2
def usbDtString : ℕ := 3
def usbLangidEnglishUs : BitVec 16 := 0x409#16
def bConfigurationValue : BitVec 16 := 1#16

def devDesc : List Byte :=
  [18#8, 1#8, 0x00#8, 0x02#8, 0#8, 0#8, 0#8, 64#8, 0x50#8, 0x1d#8, 0x31#8, 0x60#8,
    0x00#8, 0x02#8, 1#8, 2#8, 3#8, 1#8]

/-- Configuration, interface and DFU functional descriptor; only `bmAttributes` of the last
depends on the build. -/
def configDesc (c : Device) : List Byte :=
  [9#8, 2#8, 27#8, 0#8, 1#8, 1#8, 5#8, 0xC0#8, 0x32#8,
    9#8, 4#8, 0#8, 0#8, 0#8, 0xFE#8, 1#8, 2#8, 4#8,
    9#8, 0x21#8, (if c.enableDfuUpload then 0x02#8 else 0#8) ||| 0x01#8 ||| 0x08#8,
    255#8, 0#8, 0x00#8, 0x10#8, 0x1A#8, 0x01#8]

def asciiBytes (s : String) : List Byte := s.toList.map fun ch => BitVec.ofNat 8 ch.toNat

/-- The digits of `v`, last one first, put before `acc`; a 32-bit `int` has at most ten. -/
def pushDigits : ℕ → ℤ → List Byte → List Byte
  | 0, _, acc => acc
  | fuel + 1, v, acc =>
    let acc := BitVec.ofInt 8 (48 + v.tmod 10) :: acc
    let v := v.tdiv 10
    if v ≠ 0 then pushDigits fuel v acc else acc

/-- `prepare_memory_layout`: the text left in `memory_layout`. -/
def prepareMemoryLayout (c : Device) : List Byte :=
  let userKb : ℤ := c.flashSize - flashBootldrSizeKb
  let pageSizeKb := c.getFlashPageSize / 1024
  let bootloaderPages := flashBootldrSizeKb / pageSizeKb
  let userPages := userKb.tdiv pageSizeKb
  asciiBytes "@Internal Flash /0x08000000/" ++
    pushDigits 10 bootloaderPages [] ++
    asciiBytes (if pageSizeKb = 2 then "*002Ka," else "*001Ka,") ++
    pushDigits 10 userPages [] ++
    asciiBytes (if pageSizeKb = 2 then "*002Kg" else "*001Kg")

def hcharset (n : ℕ) : Byte := (asciiBytes "0123456789abcdef").getD n 0#8

/-- `get_dev_unique_id`: the prefix and two hex digits for each of nine bytes. -/
def getDevUniqueId (c : Device) : List Byte :=
  asciiBytes "SWIND_" ++ (List.range 9).flatMap fun i =>
    [hcharset ((c.uniqueId i).toNat / 16), hcharset ((c.uniqueId i).toNat % 16)]

def usbStrings (c : Device) : List (List Byte) :=
  [asciiBytes "davidgf.net (libopencm3 based)", asciiBytes "Swindle bootloader_0.1",
    getDevUniqueId c, prepareMemoryLayout c, asciiBytes "Bootloader "]

end Swindle
