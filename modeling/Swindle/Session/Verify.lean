import Swindle.Session.Update

/-! Reading the flash back over UPLOAD, and an update that the host verifies before it sends the
device away. -/
namespace Swindle
open Machine

def cellsFrom (m : Addr → Byte) (a : Addr) (i : ℕ) : Byte := m (a + BitVec.ofNat 32 i)

/-- `n` blocks of flash from `a` on, by number over a fixed pointer. -/
def readRequests (a : Addr) (n : ℕ) : List Request :=
  [.dnload (.setAddress a), .getstatus, .abort] ++
    (List.range n).map fun i => .upload (BitVec.ofNat 16 (i + 2)) dfuTransferSize

def readReplies (m : Addr → Byte) (a : Addr) (n : ℕ) : List (Reply Byte) :=
  [.data [], .data (statusBytes .ok 100#32 .dfuDnbusy), .data []] ++
    (List.range n).map fun i => .data (slice (cellsFrom m (blockBase a i)) 0 dfuTransferSize)

/-- What a host has read when it puts the blocks together. -/
def readBack (rs : List (Reply Byte)) : List Byte :=
  rs.flatMap fun
    | .data d => d
    | _ => []

def verifiedUpdate (a : Addr) (img : List Byte) (ws : List (Addressing × ℕ)) : List Request :=
  ws.flatMap (putRequests a img) ++
    (readRequests a (blockCount dfuTransferSize img) ++ [.leave, .getstatus])

section Read

variable {c : Device} {v : Server} {a : Addr} {n : ℕ}

theorem serve_upload {b : BitVec 16} {x : Addr} (hup : c.enableDfuUpload) (hb : b ≠ 0#16)
    (hbase : blockAddress v.pointer b = x) (hin : Inside c x dfuTransferSize)
    (rp : Reply Byte) :
    v.Admits c (.upload b dfuTransferSize) ∧
      serveRequest c (rp, .serving v) (.upload b dfuTransferSize) =
        (.data (slice (cellsFrom v.store x) 0 dfuTransferSize),
          .serving { v with phase := .uploadIdle }) := by
  have hend := endAddr_lt c
  have hwrap : NoWrap x dfuTransferSize :=
    Nat.lt_of_le_of_lt (hin.2.trans hend) (show 2 ^ 31 < 2 ^ 32 by decide)
  constructor
  · refine ⟨dfuTransferSize_pos, show 4096 < 2 ^ 16 by decide, fun _ => ?_⟩
    rwa [hbase]
  · have hcells (n : ℕ) : (List.range n).map (fun i => v.store (x + BitVec.ofNat 32 i)) =
        slice (cellsFrom v.store x) 0 n := by
      simp [slice, cellsFrom]
    have hserve (n : ℕ) : v.serve c (.upload b n) =
        (.data (slice (cellsFrom v.store x) 0 (min dfuTransferSize n)),
          .serving { v with phase := .uploadIdle }) := by
      rw [Server.serve, if_neg hb, hbase, if_pos ⟨hup, hin⟩, hcells]
    have hwhole := hserve dfuTransferSize
    rwa [Nat.min_self] at hwhole

theorem readBlock_address {i : ℕ} (hin : Inside c a (dfuTransferSize * (i + 1))) :
    BitVec.ofNat 16 (i + 2) ≠ 0#16 ∧
      blockAddress a (BitVec.ofNat 16 (i + 2)) = blockBase a i ∧
      Inside c (blockBase a i) dfuTransferSize := by
  have h4 : dfuTransferSize = 4096 := rfl
  have hend := c.flashSize_lt
  obtain ⟨hlo, hhi⟩ := hin
  rw [startAddr_toNat] at hlo
  rw [h4, endAddr_toNat] at hhi
  refine ⟨?_, ?_, ?_⟩
  · intro hz
    have hz' := congrArg BitVec.toNat hz
    simp only [BitVec.toNat_ofNat] at hz'
    omega
  · rw [blockAddress, blockBase, h4]
    refine congrArg (a + ·) (BitVec.eq_of_toNat_eq ?_)
    rw [BitVec.toNat_mul, BitVec.toNat_sub, BitVec.toNat_setWidth]
    simp only [BitVec.toNat_ofNat]
    omega
  · have hnat : (blockBase a i).toNat = a.toNat + 4096 * i := by
      rw [blockBase, BitVec.toNat_add, BitVec.toNat_ofNat, h4]
      omega
    unfold Inside
    rw [hnat, startAddr_toNat, endAddr_toNat, h4]
    omega

theorem serve_uploads (hup : c.enableDfuUpload) (hin : Inside c a (dfuTransferSize * n))
    (hv : v.pointer = a) (rp : Reply Byte) :
    let us : List Request :=
      (List.range n).map fun i => .upload (BitVec.ofNat 16 (i + 2)) dfuTransferSize
    ∃ rq u, Along (serveRequest c) (fun p r => (Act.dfu r).Admitted c p) (rp, .serving v) us ∧
      trace (serveRequest c) Prod.fst (rp, .serving v) us = (List.range n).map (fun i =>
        .data (slice (cellsFrom v.store (blockBase a i)) 0 dfuTransferSize)) ∧
      run (serveRequest c) (rp, .serving v) us = (rq, .serving u) ∧
      u.pointer = a ∧ u.store = v.store := by
  intro us
  induction n with
  | zero => exact ⟨rp, v, trivial, rfl, rfl, hv, rfl⟩
  | succ n ih =>
    have hless : Inside c a (dfuTransferSize * n) :=
      ⟨hin.1, (Nat.add_le_add_left (Nat.mul_le_mul_left _ (Nat.le_succ n)) _).trans hin.2⟩
    obtain ⟨rq, u, hadm, htrace, hrun, hu, hstore⟩ := ih hless
    obtain ⟨hne, hbase, hblock⟩ := readBlock_address hin
    have hpointer : blockAddress u.pointer (BitVec.ofNat 16 (n + 2)) = blockBase a n := by
      rw [hu, hbase]
    obtain ⟨hlast, hserve⟩ := serve_upload (v := u) hup hne hpointer hblock rq
    refine ⟨.data (slice (cellsFrom u.store (blockBase a n)) 0 dfuTransferSize),
      { u with phase := .uploadIdle }, ?_, ?_, ?_, hu, hstore⟩
    · simp only [us, List.range_succ, List.map_append, along_append, hrun]
      exact ⟨hadm, hlast, trivial⟩
    · simp only [us, List.range_succ, List.map_append, trace_append, hrun, htrace]
      rw [List.map_singleton, trace, trace, hserve, hstore]
      rfl
    · simp only [us, List.range_succ, List.map_append, run_append, hrun]
      exact hserve

theorem serve_read (hup : c.enableDfuUpload) (hin : Inside c a (dfuTransferSize * n))
    (rp : Reply Byte) :
    ∃ rq u, Along (serveRequest c) (fun p r => (Act.dfu r).Admitted c p) (rp, .serving v)
        (readRequests a n) ∧
      trace (serveRequest c) Prod.fst (rp, .serving v) (readRequests a n) =
        readReplies v.store a n ∧
      run (serveRequest c) (rp, .serving v) (readRequests a n) = (rq, .serving u) ∧
      u.store = v.store := by
  let w : Server := { v with pointer := a, phase := .idle }
  obtain ⟨rq, u, hadm, htrace, hrun, -, hstore⟩ := serve_uploads (v := w) hup hin rfl (.data [])
  refine ⟨rq, u, ⟨trivial, trivial, trivial, hadm⟩, ?_, hrun, hstore⟩
  exact congrArg (_ :: _ :: _ :: ·) htrace

theorem readBack_readReplies (m : Addr → Byte) :
    readBack ((readReplies m a n).drop 3) = slice (cellsFrom m a) 0 (dfuTransferSize * n) := by
  have hpackets := flatten_packet (cellsFrom m a) (k := dfuTransferSize)
    (m := dfuTransferSize * n) n
  rw [Nat.min_self] at hpackets
  rw [← hpackets]
  change ((List.range n).map _).flatMap _ = _
  rw [List.flatMap_map, List.flatMap_def]
  refine congrArg List.flatten (List.map_congr_left fun i hi => ?_)
  have hfull : dfuTransferSize ≤ dfuTransferSize * n - dfuTransferSize * i := by
    rw [← Nat.mul_sub]
    exact Nat.le_mul_of_pos_right _ (Nat.sub_pos_of_lt (List.mem_range.mp hi))
  rw [packet, Nat.min_eq_left hfull]
  refine List.map_congr_left fun j _ => ?_
  rw [cellsFrom, cellsFrom, blockBase, Nat.zero_add, BitVec.ofNat_add, BitVec.add_assoc]

end Read

theorem Holds.readBack {c : Device} {a : Addr} {img : List Byte} {m m' : Addr → Byte}
    (h : Holds c a img m m') {n : ℕ} (hn : img.length ≤ n) :
    (slice (cellsFrom m' a) 0 n).take img.length = img := by
  apply List.ext_getElem
  · simp [hn]
  · intro i hi hi'
    simp only [slice, List.getElem_take, List.getElem_map, List.getElem_range, Nat.zero_add]
    exact h.image i hi'

theorem length_le_blocks (img : List Byte) :
    img.length ≤ dfuTransferSize * blockCount dfuTransferSize img := by
  have hlast := lt_blockCount_iff dfuTransferSize_pos img (blockCount dfuTransferSize img)
  exact Nat.not_lt.mp (mt hlast.mpr (Nat.lt_irrefl _))

end Swindle
