import Swindle.Device
import Swindle.Machine.Nor

/-! `flash.h`: the flash controller, page erase, the blank test and the programming loops.
Operations complete at once, so waiting for the busy flag does nothing here. -/
namespace Swindle
open Machine

inductive FlashOp
  | erase (ar : Addr)
  | program (addr : Addr) (n : ℕ)
  deriving DecidableEq, Repr

structure FlashCr where
  lock : Bool
  strt : Bool
  per : Bool
  pg : Bool
  deriving DecidableEq, Repr

/-- `erased` is the latch of `check_do_erase`; `ops` lists what the hardware has done in the
current poll, newest first. -/
structure Flash where
  mem : Addr → Byte
  cr : FlashCr
  ar : Addr
  erased : Bool
  ops : List FlashOp

/-- `x` lies in the hardware page that contains `a`. -/
def SamePage (c : Device) (a x : Addr) : Prop :=
  x.toNat / c.getFlashPageSize = a.toNat / c.getFlashPageSize

instance (c : Device) (a : Addr) : DecidablePred (SamePage c a) := fun _ => Nat.decEq _ _

/-- The `n` addresses from `a` on, modulo 2^32. -/
def InSpan (a : Addr) (n : ℕ) (x : Addr) : Prop := (x - a).toNat < n

instance (a : Addr) (n : ℕ) : DecidablePred (InSpan a n) := fun _ => Nat.decLt _ _

namespace Flash

/-- A store to FLASH_CR. It has no effect while LOCK is set; STRT with PER erases the page
of FLASH_AR and reads back 0 afterwards. -/
def writeCr (c : Device) (v : FlashCr) (f : Flash) : Flash :=
  if f.cr.lock then f
  else if v.strt && v.per then
    { f with
      cr := { v with strt := false }
      mem := Nor.erase (SamePage c f.ar) f.mem
      ops := .erase f.ar :: f.ops }
  else { f with cr := v }

/-- A store of `n` bytes to flash, which programs them when PG allows it. -/
def store (a : Addr) (n : ℕ) (v : ℕ → Byte) (f : Flash) : Flash :=
  if f.cr.pg && !f.cr.lock then
    { f with
      mem := Nor.program (InSpan a n) (fun x => v (x - a).toNat) f.mem
      ops := .program a n :: f.ops }
  else f

end Flash

def leByte {n : ℕ} (v : BitVec n) (j : ℕ) : Byte := v.extractLsb' (8 * j) 8

def load16 (p : ℕ → Byte) (i : ℕ) : BitVec 16 := p (i + 1) ++ p i

def load32 (p : ℕ → Byte) (i : ℕ) : BitVec 32 := p (i + 3) ++ (p (i + 2) ++ (p (i + 1) ++ p i))

/-- The word at `a`, with addresses taken modulo 2^32. -/
def read32 (mem : Addr → Byte) (a : Addr) : BitVec 32 :=
  load32 (fun j => mem (a + BitVec.ofNat 32 j)) 0

def wordAddrs (p : Addr) (n : ℕ) : List Addr :=
  (List.range n).map fun i => p + BitVec.ofNat 32 (4 * i)

theorem wordAddrs_succ (p : Addr) (n : ℕ) : wordAddrs p (n + 1) = p :: wordAddrs (p + 4#32) n := by
  simp only [wordAddrs, List.range_succ_eq_map, List.map_cons, List.map_map, Nat.mul_zero,
    BitVec.add_zero]
  refine congrArg (p :: ·) (List.map_congr_left fun i _ => ?_)
  rw [Function.comp_apply, BitVec.add_assoc, Nat.mul_succ, Nat.add_comm, BitVec.ofNat_add]

theorem mem_wordAddrs {p q : Addr} {n : ℕ} :
    q ∈ wordAddrs p n ↔ ∃ i < n, q = p + BitVec.ofNat 32 (4 * i) := by
  simp [wordAddrs, eq_comm]

/-- The key sequence of `_flash_unlock(0)` clears LOCK. -/
def flashUnlock (f : Flash) : Flash := { f with cr := { f.cr with lock := false } }

def flashLock (c : Device) (f : Flash) : Flash := f.writeCr c { f.cr with lock := true }

def flashErasePage (c : Device) (pageAddress : Addr) (f : Flash) : Flash :=
  let f := f.writeCr c { f.cr with per := true }
  let f := { f with ar := pageAddress }
  let f := f.writeCr c { f.cr with strt := true }
  f.writeCr c { f.cr with per := false }

def flashPageIsErased (c : Device) (mem : Addr → Byte) (addr : Addr) : Bool :=
  (List.range (c.getFlashPageSize / 4)).all fun i =>
    read32 mem (addr + BitVec.ofNat 32 (4 * i)) = 0xffffffff#32

def flashProgramBuffer16 (address : Addr) (data : ℕ → Byte) (nbWord16 : ℕ) (f : Flash) : Flash :=
  (List.range nbWord16).foldl
    (fun f i => f.store (address + BitVec.ofNat 32 (2 * i)) 2 (leByte (load16 data (2 * i)))) f

def flashProgramBuffer32 (address : Addr) (data : ℕ → Byte) (nbWord32 : ℕ) (f : Flash) : Flash :=
  (List.range nbWord32).foldl
    (fun f i => f.store (address + BitVec.ofNat 32 (4 * i)) 4 (leByte (load32 data (4 * i)))) f

def flashProgramBuffer (c : Device) (address : Addr) (data : ℕ → Byte) (len : ℕ)
    (f : Flash) : Flash :=
  let f := f.writeCr c { f.cr with pg := true }
  let f := flashProgramBuffer16 address data (len / 2) f
  f.writeCr c { f.cr with pg := false }

def flashProgramBufferGd32 (c : Device) (address : Addr) (data : ℕ → Byte) (len : ℕ)
    (f : Flash) : Flash :=
  if len % 4 ≠ 0 ∨ address.toNat % 4 ≠ 0 then flashProgramBuffer c address data len f
  else
    let f := f.writeCr c { f.cr with pg := true }
    let f := flashProgramBuffer32 address data (len / 4) f
    f.writeCr c { f.cr with pg := false }

/-- `for (page = page; page < limit; page += page_size)` around the blank test and the erase,
stopped after `fuel` rounds. -/
def erasePages (c : Device) (limit : Addr) : ℕ → Addr → Flash → Flash
  | 0, _, f => f
  | fuel + 1, page, f =>
    if page < limit then
      erasePages c limit fuel (page + BitVec.ofNat 32 c.getFlashPageSize)
        (if flashPageIsErased c f.mem page then f else flashErasePage c page f)
    else f

/-- Each round advances by at least 1 KB, so the flash size in KB bounds the rounds. -/
def checkDoErase (c : Device) (f : Flash) : Flash :=
  if f.erased then f
  else { erasePages c (endAddr c) c.flashSize startAddr f with erased := true }

end Swindle
