import Swindle.Dfu.Wipe
import Swindle.Download.Sectors
import Swindle.Machine.Port

/-! What a DFU host may rely on: a memory of flash pages behind an address pointer, and the
state its next request meets. No buffers, no packets, no registers. -/
namespace Swindle
open Machine

/-- The DfuSe commands, as the host means them. Any other command is taken and ignored. -/
inductive Command
  | setAddress (a : Addr)
  | erase (a : Addr)
  | write (blocknum : BitVec 16) (data : List Byte)
  | vendor (data : List Byte)
  deriving DecidableEq, Repr

namespace Command

def blocknum : Command → BitVec 16
  | write b _ => b
  | _ => 0#16

def payload : Command → List Byte
  | setAddress a => [cmdSetaddr, leByte a 0, leByte a 1, leByte a 2, leByte a 3]
  | erase a => [cmdErase, leByte a 0, leByte a 1, leByte a 2, leByte a 3]
  | write _ data => data
  | vendor data => data

/-- The payload fits a transfer, and is not that of another command. -/
def WellFormed : Command → Prop
  | write b data => b ≠ 0#16 ∧ 0 < data.length ∧ data.length ≤ dfuTransferSize
  | vendor data => 0 < data.length ∧ data.length ≤ dfuTransferSize ∧
      data.head? ≠ some cmdErase ∧ data.head? ≠ some cmdSetaddr
  | _ => True

instance : DecidablePred WellFormed
  | setAddress _ => isTrue trivial
  | erase _ => isTrue trivial
  | write _ _ => inferInstanceAs (Decidable (_ ∧ _))
  | vendor _ => inferInstanceAs (Decidable (_ ∧ _))

theorem WellFormed.length {cmd : Command} (h : cmd.WellFormed) :
    0 < cmd.payload.length ∧ cmd.payload.length ≤ dfuTransferSize := by
  cases cmd with
  | write b data => exact h.2
  | vendor data => exact ⟨h.1, h.2.1⟩
  | setAddress a => exact ⟨Nat.succ_pos _, show 5 ≤ 4096 by decide⟩
  | erase a => exact ⟨Nat.succ_pos _, show 5 ≤ 4096 by decide⟩

end Command

inductive Request
  | dnload (cmd : Command)
  | leave
  | upload (blocknum : BitVec 16) (n : ℕ)
  | getstatus
  | clrstatus
  | getstate
  | abort
  | detach
  deriving DecidableEq, Repr

/-- Between two requests. A command that has been sent waits in `sync`. -/
inductive Phase
  | idle
  | sync (cmd : Command)
  | dnloadIdle
  | manifestSync
  | uploadIdle
  | error
  deriving DecidableEq, Repr

namespace Phase

def state : Phase → DfuState
  | idle => .dfuIdle
  | sync _ => .dfuDnloadSync
  | dnloadIdle => .dfuDnloadIdle
  | manifestSync => .dfuManifestSync
  | uploadIdle => .dfuUploadIdle
  | error => .dfuError

def status : Phase → DfuStatus
  | error => .errUnknown
  | _ => .ok

end Phase

structure Server where
  phase : Phase
  pointer : Addr
  store : Addr → Byte
  /-- The old firmware is gone; of interest to safe-write builds only. -/
  fresh : Bool

/-- The server, or what it leaves in the flash once the host has sent it away. -/
inductive Service
  | serving (v : Server)
  | gone (store : Addr → Byte)

/-- `n` bytes from `a` on lie in the application area. -/
def Inside (c : Device) (a : Addr) (n : ℕ) : Prop :=
  startAddr.toNat ≤ a.toNat ∧ a.toNat + n ≤ (endAddr c).toNat

instance (c : Device) (a : Addr) (n : ℕ) : Decidable (Inside c a n) :=
  inferInstanceAs (Decidable (_ ∧ _))

namespace Server

variable (c : Device) (v : Server)

/-- The first command that works on the flash wipes the application area, in safe-write
builds. -/
def prepare : Server :=
  if c.enableSafewrite then
    { v with
      store := if v.fresh then v.store else Nor.erase (Touched c startAddr (endAddr c)) v.store
      fresh := true }
  else v

/-- A block replaces the pages that it lies in. -/
def execute : Command → Server
  | .setAddress a => { v with pointer := a }
  | .erase a =>
    let v := v.prepare c
    if Inside c a dfuTransferSize then { v with store := Nor.erase (SamePage c a) v.store } else v
  | .write b data =>
    let v := v.prepare c
    let base := blockAddress v.pointer b
    if Inside c base data.length then
      { v with
        store := Nor.overwrite (Touched c base (base + BitVec.ofNat 32 data.length))
          (fun x => data.getD (x - base).toNat (BitVec.allOnes 8)) v.store }
    else v
  | .vendor _ => v

/-- A request: the reply, and what becomes of the server. -/
def serve : Request → Reply Byte × Service
  | .dnload cmd => (.data [], .serving { v with phase := .sync cmd })
  | .leave => (.data [], .serving { v with phase := .manifestSync })
  | .upload b n =>
    let base := blockAddress v.pointer b
    if b = 0#16 then
      (.data ([0x00#8, cmdSetaddr, cmdErase].take n), .serving { v with phase := .uploadIdle })
    else if c.enableDfuUpload ∧ Inside c base dfuTransferSize then
      (.data ((List.range (min dfuTransferSize n)).map fun i =>
        v.store (base + BitVec.ofNat 32 i)), .serving { v with phase := .uploadIdle })
    else (.data [], .serving { v with phase := .error })
  | .getstatus =>
    match v.phase with
    | .manifestSync => (.noAnswer, .gone v.store)
    | .sync cmd =>
      (.data (statusBytes .ok 100#32 .dfuDnbusy),
        .serving { v.execute c cmd with phase := .dnloadIdle })
    | p => (.data (statusBytes p.status 0#32 p.state), .serving v)
  | .clrstatus =>
    (.data [], .serving { v with phase := if v.phase = .error then .idle else v.phase })
  | .getstate => (.data [v.phase.state.toByte], .serving v)
  | .abort => (.data [], .serving { v with phase := .idle })
  | .detach => (.noAnswer, .gone v.store)

/-- What a host must respect before a waiting command is run: no address runs over the end of
the address space, and inside the application area it keeps to whole pages and half-words. -/
def Fits : Command → Prop
  | .erase a => NoWrap a dfuTransferSize ∧
      (Inside c a dfuTransferSize → a.toNat % c.getFlashPageSize = 0)
  | .write b data =>
    let base := blockAddress v.pointer b
    NoWrap base data.length ∧
      (Inside c base data.length → base.toNat % c.getFlashPageSize = 0 ∧ data.length % 2 = 0)
  | _ => True

instance (cmd : Command) : Decidable (v.Fits c cmd) := by
  cases cmd <;> unfold Fits <;> infer_instance

/-- What it must respect in a request. -/
def Admits : Request → Prop
  | .dnload cmd => cmd.WellFormed
  | .upload b n => 0 < n ∧ n < 2 ^ 16 ∧
      (b ≠ 0#16 → NoWrap (blockAddress v.pointer b) dfuTransferSize)
  | .getstatus =>
    match v.phase with
    | .sync cmd => v.Fits c cmd
    | _ => True
  | _ => True

instance (r : Request) : Decidable (v.Admits c r) := by
  cases r <;> unfold Admits
  case getstatus => cases v.phase <;> infer_instance
  all_goals infer_instance

end Server

/-! The globals of stage 2 as such a server. -/

/-- The waiting download is `cmd`. -/
def Command.Pends (p : Prog) : Command → Prop
  | setAddress a => p.blocknum = 0#16 ∧ p.buf 0 = cmdSetaddr ∧ readU32 p.buf 1 = a
  | erase a => p.blocknum = 0#16 ∧ p.buf 0 = cmdErase ∧ readU32 p.buf 1 = a
  | write b data => p.blocknum = b ∧ b ≠ 0#16 ∧ data.length ≤ dfuTransferSize ∧
      p.len = BitVec.ofNat 16 data.length ∧ ∀ i (h : i < data.length), p.buf i = data[i]
  | vendor _ => p.blocknum = 0#16 ∧ p.buf 0 ≠ cmdErase ∧ p.buf 0 ≠ cmdSetaddr

structure Serves (c : Device) (v : Server) (d : Dfu) : Prop where
  state : d.usbdfuState = v.phase.state
  pends : ∀ cmd, v.phase = .sync cmd → cmd.Pends d.prog
  pointer : d.prog.addr = v.pointer
  store : d.flash.mem = v.store
  fresh : c.enableSafewrite → d.flash.erased = v.fresh
  locked : d.flash.Idle true

section Execute

variable {c : Device} {v : Server} {d : Dfu} {cmd : Command}

theorem pends_download (h : cmd.WellFormed) (p : Prog) :
    cmd.Pends (p.download cmd.blocknum cmd.payload) := by
  cases cmd with
  | setAddress a => exact ⟨rfl, rfl, readU32_blit cmdSetaddr a p.buf⟩
  | erase a => exact ⟨rfl, rfl, readU32_blit cmdErase a p.buf⟩
  | write b data =>
    obtain ⟨hb, -, h4⟩ := h
    exact ⟨rfl, hb, h4, rfl, fun i hi => p.download_buf b hi⟩
  | vendor data =>
    obtain ⟨h0, -, he, hs⟩ := h
    have hfirst : (p.download 0#16 data).buf 0 = data[0] := p.download_buf 0#16 h0
    rw [List.head?_eq_getElem?, List.getElem?_eq_getElem h0] at he hs
    refine ⟨rfl, ?_, ?_⟩
    · intro hz
      exact he (congrArg some (hfirst.symm.trans hz))
    · intro hz
      exact hs (congrArg some (hfirst.symm.trans hz))

theorem inside_iff {a : Addr} {n : ℕ} (hw : NoWrap a n) :
    addressCheck c a (BitVec.ofNat 32 n) ↔ Inside c a n := addressCheck_iff hw

theorem Serves.prepared {f : Flash} (hm : f.mem = v.store)
    (hf : c.enableSafewrite → f.erased = v.fresh) (hidle : f.Idle false) :
    (safewrite c f).mem = (v.prepare c).store ∧
      (c.enableSafewrite → (safewrite c f).erased = (v.prepare c).fresh) := by
  rw [safewrite_mem c hidle]
  unfold wiped Server.prepare
  cases hs : c.enableSafewrite with
  | false => exact ⟨hm, fun h => absurd h Bool.false_ne_true⟩
  | true =>
    refine ⟨?_, fun _ => safewrite_erased c hs⟩
    rw [hf hs, hm]
    cases v.fresh <;> rfl

@[simp] theorem prepare_pointer (c : Device) (v : Server) :
    (v.prepare c).pointer = v.pointer := by
  unfold Server.prepare
  split <;> rfl

theorem Serves.addrAfter (h : Serves c v d) (hp : cmd.Pends d.prog) :
    d.prog.addrAfter = (v.execute c cmd).pointer := by
  have hes : cmdErase ≠ cmdSetaddr := by decide
  cases cmd with
  | setAddress a => exact (if_pos ⟨hp.1, hp.2.1⟩).trans hp.2.2
  | erase a =>
    have hno : ¬(d.prog.blocknum = 0#16 ∧ d.prog.buf 0 = cmdSetaddr) := by
      rw [hp.2.1]
      exact fun hz => hes hz.2
    have hkeep : d.prog.addrAfter = d.prog.addr := if_neg hno
    rw [hkeep, h.pointer, Server.execute]
    split <;> simp
  | write b data =>
    have hno : ¬(d.prog.blocknum = 0#16 ∧ d.prog.buf 0 = cmdSetaddr) := by
      rw [hp.1]
      exact fun hz => hp.2.1 hz.1
    have hkeep : d.prog.addrAfter = d.prog.addr := if_neg hno
    rw [hkeep, h.pointer, Server.execute]
    split <;> simp
  | vendor data => exact (if_neg fun hz => hp.2.2 hz.2).trans h.pointer

theorem prepare_fresh (hs : c.enableSafewrite) : (v.prepare c).fresh = true := by
  rw [Server.prepare, if_pos hs]

theorem Serves.flashAfter (h : Serves c v d) (hp : cmd.Pends d.prog) (hfit : v.Fits c cmd) :
    let f := d.prog.flashAfter c (flashUnlock d.flash)
    f.mem = (v.execute c cmd).store ∧
      (c.enableSafewrite → f.erased = (v.execute c cmd).fresh) := by
  have hidle : (flashUnlock d.flash).Idle false := Flash.idle_unlock h.locked
  have hprep := Serves.prepared (c := c) (v := v) (f := flashUnlock d.flash) h.store h.fresh hidle
  have hwiped : wiped c (flashUnlock d.flash) = (v.prepare c).store := by
    rw [← safewrite_mem c hidle]
    exact hprep.1
  have herased : d.prog.operates → c.enableSafewrite →
      (d.prog.flashAfter c (flashUnlock d.flash)).erased = true := fun hop hs =>
    (flashAfter_same c d.prog hs hop ⟨rfl, fun _ _ => rfl, fun _ => rfl⟩ hidle hidle).2.1
  intro f
  cases cmd with
  | setAddress a =>
    have hcmd : d.prog.buf 0 ≠ cmdErase := by
      rw [hp.2.1]
      decide
    have hf : f = flashUnlock d.flash := (if_pos hp.1).trans (if_neg hcmd)
    rw [hf]
    exact ⟨h.store, h.fresh⟩
  | vendor data =>
    have hf : f = flashUnlock d.flash := (if_pos hp.1).trans (if_neg hp.2.1)
    rw [hf]
    exact ⟨h.store, h.fresh⟩
  | erase a =>
    obtain ⟨hb, hcmd, ha⟩ := hp
    have hf : f = executeErase c d.prog (flashUnlock d.flash) := (if_pos hb).trans (if_pos hcmd)
    have hop : d.prog.operates := by simp [Prog.operates, hcmd]
    have hmem := executeErase_mem c (p := d.prog) hidle
    rw [ha, hwiped] at hmem
    rw [Server.execute]
    constructor
    · rw [hf, hmem]
      by_cases hin : Inside c a dfuTransferSize
      · rw [if_pos ((inside_iff hfit.1).mpr hin), if_pos hin,
          eraseUnlessBlank_mem c (safewrite_idle c hidle) (hfit.2 hin), hprep.1]
      · rw [if_neg (mt (inside_iff hfit.1).mp hin), if_neg hin]
    · intro hs
      rw [herased hop hs]
      split <;> exact (prepare_fresh hs).symm
  | write b data =>
    obtain ⟨hb, hb0, h4, hlen, hdata⟩ := hp
    have hb' : d.prog.blocknum ≠ 0#16 := by rwa [hb]
    have hf : f = executeBlock c d.prog (flashUnlock d.flash) := if_neg hb'
    have hop : d.prog.operates := by simp [Prog.operates, hb']
    have hn : d.prog.len.toNat = data.length := by rw [hlen, toNat_length h4]
    have hbase : d.prog.base = blockAddress v.pointer b := by rw [Prog.base, h.pointer, hb]
    obtain ⟨hwrap, hpage⟩ := hfit
    rw [Server.execute]
    rw [prepare_pointer]
    constructor
    · by_cases hin : Inside c (blockAddress v.pointer b) data.length
      · obtain ⟨halign, heven⟩ := hpage hin
        have hblock := executeBlock_mem c d.prog hidle (by rwa [hbase]) (by rw [hbase]; exact hin.1)
          (by rw [hbase, hn]; exact hin.2) (by rwa [hn])
        rw [if_pos hin, hf, hblock.1, hbase, Prog.length_eq, hn, hwiped]
        refine Nor.overwrite_congr (fun _ => Iff.rfl) fun x _ => ?_
        by_cases hx : InSpan (blockAddress v.pointer b) data.length x
        · have hx' : (x - blockAddress v.pointer b).toNat < data.length := hx
          rw [if_pos hx, hdata _ hx', List.getD_eq_getElem _ _ hx']
        · rw [if_neg hx, List.getD_eq_default _ _ (Nat.not_lt.mp hx)]
      · have hrefused : addressCheck c d.prog.base d.prog.length = false := by
          rw [Prog.length_eq, hn, hbase]
          exact Bool.eq_false_iff.mpr (mt (inside_iff hwrap).mp hin)
        rw [if_neg hin, hf, executeBlock_refused c d.prog hrefused, hprep.1]
    · intro hs
      rw [herased hop hs]
      split <;> exact (prepare_fresh hs).symm

theorem Serves.execute (h : Serves c v d) (hp : v.phase = .sync cmd) (hfit : v.Fits c cmd) :
    Serves c { v.execute c cmd with phase := .dnloadIdle }
      (usbdfuGetstatusComplete c { d with usbdfuState := .dfuDnbusy }) := by
  have hidle : (flashUnlock d.flash).Idle false := Flash.idle_unlock h.locked
  have hafter := (flashAfter_cr c d.prog hidle).trans hidle
  have hpend := h.pends cmd hp
  obtain ⟨hmem, hfresh⟩ := h.flashAfter hpend hfit
  rw [getstatusComplete_of_busy c rfl, Flash.lock_eq hafter]
  refine ⟨rfl, ?_, h.addrAfter hpend, hmem, hfresh, rfl⟩
  intro cmd' hc
  cases hc

end Execute

end Swindle
