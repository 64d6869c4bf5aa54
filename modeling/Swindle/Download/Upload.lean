import Swindle.Download.Block
import Swindle.Usb.Read

/-! Reading a block back: DFU_UPLOAD after the DNLOAD of the same block. -/
namespace Swindle
open Machine

def received (c : Device) (s : State) (es : List Event) : List Byte :=
  (trace (step c) State.loaded s es).flatten.flatten

def upload (blocknum : BitVec 16) (n : ℕ) : List Event :=
  readEvents (setupPacket 0xA1#8 2#8 blocknum 0#16 (BitVec.ofNat 16 n)) ((n - 1) / 64 + 1)

theorem received_of_sent {c : Device} {s : State} {d : List Byte} {b : ℕ → Byte} {m w k : ℕ}
    (hm : m ≤ w) (hw : w < 2 ^ 16) (h : (step c s (.setup d)).Sent b m w 0)
    (hk : lastPacket 64 m w + 1 ≤ k) : received c s (readEvents d k) = slice b 0 m := by
  obtain ⟨j, rfl⟩ := Nat.exists_eq_add_of_le hk
  have hsplit : readEvents d (lastPacket 64 m w + 1 + j) =
      readEvents d (lastPacket 64 m w + 1) ++ List.replicate j .inComplete := by
    rw [readEvents, List.replicate_add, ← List.cons_append]
    rfl
  obtain ⟨-, hall⟩ := trace_read hm hw h
  have hin : ∀ e ∈ List.replicate j Event.inComplete, ∀ d', e ≠ .setup d' := fun e he d' h => by
    rw [List.eq_of_mem_replicate he] at h
    cases h
  rw [received, hsplit, hall _ hin, flatten_packets b (by decide) hm]

section Upload

variable {c : Device} {s : State} {blocknum : BitVec 16} {n : ℕ}

theorem answered_upload (hup : c.enableDfuUpload) (hb : blocknum ≠ 0#16) :
    let d := setupPacket 0xA1#8 2#8 blocknum 0#16 (BitVec.ofNat 16 n)
    let base := blockAddress s.dfu.prog.addr blocknum
    (s.answered c d).1 = .handled ∧
      if addressCheck c base (BitVec.ofNat 32 dfuTransferSize) then
        (s.answered c d).2.datasize = BitVec.ofNat 16 dfuTransferSize ∧
          ∀ i < dfuTransferSize, (s.answered c d).2.usbdControlBuffer i =
            s.dfu.flash.mem (base + BitVec.ofNat 32 i)
      else (s.answered c d).2.datasize = 0#16 := by
  intro d base
  let t := s.tookSetup d (s.usb.readSetup d)
  have hreq : t.usbReq = ⟨0xA1#8, 2#8, blocknum, 0#16, BitVec.ofNat 16 n⟩ := by
    change s.usbReq.patch (setupBytes d) = _
    rw [setupBytes_setupPacket, patch_setupPacket]
  have hdfu : t.usbReq.isDfu := by
    rw [hreq]
    exact decide_eq_true (show 0xA1#8 &&& 0x7F#8 = 0x21#8 by decide)
  have hcode : DfuReq.ofByte t.usbReq.bRequest = some .upload := by
    rw [hreq]
    rfl
  have hq : s.answered c d = (.handled, { t with dataoff := 0#16 }.withIo
      (usbdfuControlRequest c t.usbReq t.dfuIo).2) := by
    rw [State.answered, State.readDispatch_of_dfu c hdfu, hcode]
    rfl
  rw [hq, hreq, usbdfuControlRequest]
  refine ⟨rfl, ?_⟩
  have hof : DfuReq.ofByte 2#8 = some .upload := rfl
  dsimp only
  rw [hof]
  dsimp only
  rw [if_neg hb]
  split
  · rename_i hc
    rw [if_pos ⟨hup, hc⟩]
    exact ⟨rfl, fun i hi => if_pos hi⟩
  · rename_i hc
    rw [if_neg fun h => hc h.2]
    rfl

theorem received_upload (hup : c.enableDfuUpload) (hb : blocknum ≠ 0#16) (h0 : 0 < n)
    (h4 : n ≤ dfuTransferSize) :
    received c s (upload blocknum n) =
      if addressCheck c (blockAddress s.dfu.prog.addr blocknum) (BitVec.ofNat 32 dfuTransferSize)
      then (List.range n).map fun i =>
        s.dfu.flash.mem (blockAddress s.dfu.prog.addr blocknum + BitVec.ofNat 32 i)
      else [] := by
  let d := setupPacket 0xA1#8 2#8 blocknum 0#16 (BitVec.ofNat 16 n)
  have h4' : n ≤ 4096 := h4
  have hreq : s.requestOf (.setup d) = ⟨0xA1#8, 2#8, blocknum, 0#16, BitVec.ofNat 16 n⟩ := by
    change s.usbReq.patch (setupBytes d) = _
    rw [setupBytes_setupPacket, patch_setupPacket]
  have hn : (s.requestOf (.setup d)).wLength.toNat = n := by
    rw [hreq, BitVec.toNat_ofNat]
    omega
  have hne : (s.requestOf (.setup d)).wLength ≠ 0#16 := fun hz => by
    rw [hz] at hn
    exact absurd hn (Nat.ne_of_lt h0)
  have hin : (s.requestOf (.setup d)).bmRequestType &&& 0x80#8 ≠ 0#8 := by
    rw [hreq]
    exact show 0xA1#8 &&& 0x80#8 ≠ 0#8 by decide
  obtain ⟨hcode, hanswer⟩ := answered_upload (c := c) (s := s) (n := n) hup hb
  have htaken : (s.answered c d).1 ≠ .notsupp := by rw [hcode]; decide
  have hsent := State.sent_setup (c := c) (s := s) (congrArg List.length
    (setupBytes_setupPacket 0xA1#8 2#8 blocknum 0#16 (BitVec.ofNat 16 n))) hin hne htaken
  rw [hn] at hsent
  have hlast : ∀ m, m ≤ n → lastPacket 64 m n + 1 ≤ (n - 1) / 64 + 1 := fun m hm => by
    unfold lastPacket
    split <;> omega
  have hrec := received_of_sent (Nat.min_le_right _ n) (show n < 2 ^ 16 by omega) hsent
    (hlast _ (Nat.min_le_right _ n))
  rw [upload, hrec]
  split at hanswer
  · rename_i hc
    have hmin : min (s.answered c d).2.datasize.toNat n = n := by
      rw [hanswer.1]
      exact Nat.min_eq_right h4
    rw [if_pos hc, hmin, slice]
    refine List.map_congr_left fun i hi => ?_
    have hi' : i < dfuTransferSize := Nat.lt_of_lt_of_le (List.mem_range.mp hi) h4
    rw [Nat.zero_add, hanswer.2 i hi']
  · rename_i hc
    have hmin : min (s.answered c d).2.datasize.toNat n = 0 := by
      rw [hanswer]
      exact Nat.zero_min n
    rw [if_neg hc, hmin]
    rfl

end Upload

/-- Uploading a block brings back what was downloaded if and only if 4096 bytes of flash follow
its address, however short the block is. -/
theorem upload_returns_iff {c : Device} {s : State} (hs : Reachable c s)
    (hup : c.enableDfuUpload) {blocknum : BitVec 16} (hb : 2 ≤ blocknum.toNat) {data : List Byte}
    (h2 : 2 ≤ data.length) (h4 : data.length ≤ dfuTransferSize) (heven : data.length % 2 = 0)
    {base : Addr} (hbase : blockAddress s.dfu.prog.addr blocknum = base)
    (ha : base.toNat % c.getFlashPageSize = 0)
    (hcheck : addressCheck c base (BitVec.ofNat 32 data.length))
    (hwrap : NoWrap base data.length) :
    received c (run (step c) s (operation blocknum data)) (upload blocknum data.length) = data ↔
      base.toNat + dfuTransferSize ≤ (endAddr c).toNat := by
  have hb0 : blocknum ≠ 0#16 := fun h => by
    rw [h] at hb
    exact absurd hb (by decide)
  have h0 : 0 < data.length := by omega
  obtain ⟨hlo, hhi, -⟩ := check_noWrap hcheck hwrap
  have hend := endAddr_lt c
  let t := run (step c) s (operation blocknum data)
  -- the block does not move the address pointer
  have haddr : t.dfu.prog.addr = s.dfu.prog.addr := by
    rw [show t.dfu = _ from run_operation c s blocknum h0 h4]
    exact if_neg fun h => hb0 h.1
  have hdata := run_block_data c hs.locked hb0 h0 h4 heven hbase ha hlo hhi
  have hread : (List.range data.length).map (fun i => t.dfu.flash.mem (base + BitVec.ofNat 32 i)) =
      data := by
    apply List.ext_getElem
    · simp
    · intro i _ hi
      rw [List.getElem_map, List.getElem_range]
      exact hdata i hi
  have hwhole : addressCheck c base (BitVec.ofNat 32 dfuTransferSize) ↔
      base.toNat + dfuTransferSize ≤ (endAddr c).toNat := by
    have hwrap' : NoWrap base dfuTransferSize := by
      have h4096 : dfuTransferSize = 4096 := rfl
      rw [NoWrap, h4096]
      omega
    exact (addressCheck_iff hwrap').trans (and_iff_right hlo)
  rw [received_upload hup hb0 h0 h4, haddr, hbase, hread, ← hwhole]
  split
  · simp [*]
  · rename_i hc
    have hne : [] ≠ data := fun h => by
      rw [← h] at h0
      cases h0
    simp [hc, hne]

/-- A block of two bytes at the start of the application area. -/
theorem upload_returns_iff_start :
    let c := Device.upload64k
    let s := run (step c) (State.start (fun _ => 0xFF#8) fun _ => 0#8) (setAddr startAddr)
    received c (run (step c) s (operation 2#16 [0xAA#8, 0xBB#8])) (upload 2#16 2) =
        [0xAA#8, 0xBB#8] ↔
      startAddr.toNat + dfuTransferSize ≤ (endAddr c).toNat := by
  intro c s
  have hs : Reachable c s := ⟨_, _, _, rfl⟩
  have h2 : 2 ≤ [0xAA#8, 0xBB#8].length := Nat.le_refl 2
  exact upload_returns_iff hs rfl (by decide +kernel) h2 (by decide +kernel) (by decide +kernel)
    (by decide +kernel) (by decide) (by decide) (by decide)

/-- Two bytes on the last page of the flash are programmed, and cannot be uploaded. -/
theorem last_page_not_uploaded :
    let c := Device.upload64k
    let s := run (step c) (State.start (fun _ => 0xFF#8) fun _ => 0#8) (setAddr 0x0800FC00#32)
    let t := run (step c) s (operation 2#16 [0xAA#8, 0xBB#8])
    addressCheck c 0x0800FC00#32 2#32 ∧ t.dfu.flash.mem 0x0800FC00#32 = 0xAA#8 ∧
      t.dfu.flash.mem 0x0800FC01#32 = 0xBB#8 ∧ received c t (upload 2#16 2) = [] := by
  decide +kernel

end Swindle
