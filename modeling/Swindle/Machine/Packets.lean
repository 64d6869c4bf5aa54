import Swindle.Machine.Buffer

/-! A message cut into packets for a receiver that stops at the first packet that is not full, or
once it has all it asked for. -/
namespace Swindle.Machine

variable {α : Type*}

/-- Packet `i` of the first `m` cells of `b`, in packets of at most `k`. -/
def packet (b : ℕ → α) (k m i : ℕ) : List α := slice b (k * i) (min k (m - k * i))

/-- The number of the last packet of `m` cells for a receiver that asked for `w`: a message
shorter than that ends with a packet that is not full, if need be an empty one. -/
def lastPacket (k m w : ℕ) : ℕ := if m < w then m / k else (m - 1) / k

def packets (b : ℕ → α) (k m w : ℕ) : List (List α) :=
  (List.range (lastPacket k m w + 1)).map (packet b k m)

/-- The receiver has seen the last packet: one that is not full, or all it asked for. -/
def Ends (k w : ℕ) (ps : List (List α)) : Prop :=
  (∃ p ∈ ps, p.length < k) ∨ w ≤ ps.flatten.length

variable (b : ℕ → α) {k m w : ℕ}

@[simp] theorem length_packet (i : ℕ) : (packet b k m i).length = min k (m - k * i) := by
  simp [packet]

@[simp] theorem length_packets : (packets b k m w).length = lastPacket k m w + 1 := by
  simp [packets]

theorem lastPacket_bounds (hk : 0 < k) (hm : m ≤ w) :
    k * lastPacket k m w ≤ m ∧ m ≤ k * lastPacket k m w + k ∧
      (m < w → m < k * lastPacket k m w + k) ∧
      (m = w → 0 < m → k * lastPacket k m w < m) := by
  unfold lastPacket
  split
  · have hdiv := Nat.div_add_mod m k
    have hmod := Nat.mod_lt m hk
    omega
  · have hdiv := Nat.div_add_mod (m - 1) k
    have hmod := Nat.mod_lt (m - 1) hk
    omega

theorem packet_full (hk : 0 < k) (hm : m ≤ w) {i : ℕ} (hi : i < lastPacket k m w) :
    k * (i + 1) ≤ m := by
  have hb := (lastPacket_bounds hk hm).1
  have hmul : k * (i + 1) ≤ k * lastPacket k m w := Nat.mul_le_mul_left k hi
  omega

theorem packets_full (hk : 0 < k) (hm : m ≤ w) :
    ∀ p ∈ (packets b k m w).dropLast, p.length = k := by
  intro p hp
  rw [packets, List.range_succ, List.map_append, List.map_singleton, List.dropLast_concat] at hp
  obtain ⟨i, hi, rfl⟩ := List.mem_map.mp hp
  have hfull := packet_full hk hm (List.mem_range.mp hi)
  rw [Nat.mul_succ] at hfull
  rw [length_packet]
  omega

theorem flatten_packet (n : ℕ) :
    ((List.range n).map (packet b k m)).flatten = slice b 0 (min m (k * n)) := by
  induction n with
  | zero => simp [slice]
  | succ n ih =>
    have hsum : min m (k * (n + 1)) = min m (k * n) + min k (m - k * n) := by
      rw [Nat.mul_succ]
      omega
    rw [List.range_succ, List.map_append, List.flatten_append, ih, hsum, slice_append]
    by_cases h : k * n ≤ m
    · simp [packet, h]
    · have h0 : min k (m - k * n) = 0 := by omega
      simp [packet, h0, slice]

theorem flatten_packets (hk : 0 < k) (hm : m ≤ w) : (packets b k m w).flatten = slice b 0 m := by
  have hb := (lastPacket_bounds hk hm).2.1
  rw [packets, flatten_packet, Nat.mul_succ, Nat.min_eq_left hb]

theorem take_packets {n : ℕ} (h : n ≤ lastPacket k m w + 1) :
    (packets b k m w).take n = (List.range n).map (packet b k m) := by
  rw [packets, ← List.map_take, List.take_range, Nat.min_eq_left h]

/-- The receiver stops at the last packet and at no earlier one. -/
theorem ends_take_iff (hk : 0 < k) (hm : m ≤ w) (hw : 0 < w) {i : ℕ}
    (hi : i ≤ lastPacket k m w) :
    Ends k w ((packets b k m w).take (i + 1)) ↔ i = lastPacket k m w := by
  obtain ⟨h₁, h₂, h₃, h₄⟩ := lastPacket_bounds hk hm
  rw [Ends, take_packets b (show i + 1 ≤ _ by omega), flatten_packet, length_slice]
  constructor
  · rintro (⟨p, hp, hshort⟩ | hall)
    · obtain ⟨j, hj, rfl⟩ := List.mem_map.mp hp
      have hj' := List.mem_range.mp hj
      by_contra hne
      have hfull := packet_full hk hm (show j < lastPacket k m w by omega)
      rw [length_packet, Nat.mul_succ] at *
      omega
    · by_contra hne
      have hlt : i < lastPacket k m w := by omega
      have hfull := packet_full hk hm hlt
      have hmul : k * (i + 1) ≤ k * lastPacket k m w := Nat.mul_le_mul_left k hlt
      omega
  · rintro rfl
    by_cases hlt : m < w
    · left
      refine ⟨packet b k m (lastPacket k m w), List.mem_map.mpr ⟨_, by simp, rfl⟩, ?_⟩
      have := h₃ hlt
      rw [length_packet]
      omega
    · right
      rw [Nat.mul_succ]
      omega

end Swindle.Machine
