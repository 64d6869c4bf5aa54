import Mathlib.Logic.Function.Iterate
import Swindle.Machine.Packets

/-! Control transfers from the host's side: a SETUP, packets whose data toggle alternates, and a
status stage in the other direction. The device is any machine with such a port. -/
namespace Swindle.Machine

variable {σ β : Type*}

/-- The control endpoint of a machine, as the host meets it. `ready` is the packet an IN token
fetches with its toggle, `accepts` the toggle under which an OUT packet is taken. -/
structure Port (σ β : Type*) where
  setup : σ → List β → σ
  out : σ → List β → σ
  inComplete : σ → σ
  stalled : σ → Bool
  ready : σ → Option (Bool × List β)
  accepts : σ → Option Bool

/-- What a transfer brings the host. `noAnswer` is an endpoint that is never ready, or one whose
toggle the host does not accept. -/
inductive Reply (β : Type*)
  | stalled
  | noAnswer
  | data (d : List β)
  deriving DecidableEq, Repr

namespace Port

variable (P : Port σ β)

/-- The host acknowledges the data `d` with an empty packet; a status stage is DATA1. -/
def statusOut (d : List β) (s : σ) : Reply β × σ :=
  if P.stalled s then (.stalled, s)
  else if P.accepts s = some true then (.data d, P.out s [])
  else (.noAnswer, s)

/-- The host fetches the empty packet that ends a transfer without data from the device. -/
def statusIn (s : σ) : Reply β × σ :=
  if P.stalled s then (.stalled, s)
  else
    match P.ready s with
    | some (true, []) => (.data [], P.inComplete s)
    | _ => (.noAnswer, s)

/-- The data stage of a control read: packets of at most `k` bytes, until one is short or all
`w` bytes are in. -/
def collectIn (k w : ℕ) : ℕ → Bool → List β → σ → Reply β × σ
  | 0, _, _, s => (.noAnswer, s)
  | fuel + 1, toggle, got, s =>
    if P.stalled s then (.stalled, s)
    else
      match P.ready s with
      | some (t, p) =>
        if t = toggle then
          if p.length < k ∨ w ≤ (got ++ p).length then
            P.statusOut (got ++ p) (P.inComplete s)
          else collectIn k w fuel (!toggle) (got ++ p) (P.inComplete s)
        else (.noAnswer, s)
      | none => (.noAnswer, s)

/-- The data stage of a control write: the packets in order. -/
def sendOut : List (List β) → Bool → σ → Reply β × σ
  | [], _, s => P.statusIn s
  | p :: ps, toggle, s =>
    if P.stalled s then (.stalled, s)
    else if P.accepts s = some toggle then sendOut ps (!toggle) (P.out s p)
    else (.noAnswer, s)

def read (k w : ℕ) (d : List β) (s : σ) : Reply β × σ :=
  P.collectIn k w (w / k + 1) true [] (P.setup s d)

/-- A control write of the packets `ps`; without any, a request without data. -/
def write (d : List β) (ps : List (List β)) (s : σ) : Reply β × σ :=
  P.sendOut ps true (P.setup s d)

/-! A transfer is a sequence of packets: what each of them keeps, the transfer keeps. -/

section Invariant

variable {P} {Inv : σ → Prop} (hout : ∀ s p, Inv s → Inv (P.out s p))
  (hin : ∀ s, Inv s → Inv (P.inComplete s))
include hout hin

theorem collectIn_invariant {k w fuel : ℕ} {toggle : Bool} {got : List β} {s : σ} (hs : Inv s) :
    Inv (P.collectIn k w fuel toggle got s).2 := by
  induction fuel generalizing toggle got s with
  | zero => exact hs
  | succ fuel ih =>
    unfold collectIn statusOut
    repeat' split
    all_goals first | exact hs | exact hin _ hs | exact hout _ _ (hin _ hs) | exact ih (hin _ hs)

theorem sendOut_invariant {ps : List (List β)} {toggle : Bool} {s : σ} (hs : Inv s) :
    Inv (P.sendOut ps toggle s).2 := by
  induction ps generalizing toggle s with
  | nil =>
    unfold sendOut statusIn
    repeat' split
    all_goals first | exact hs | exact hin _ hs
  | cons p ps ih =>
    unfold sendOut
    repeat' split
    all_goals first | exact hs | exact ih (hout _ _ hs)

theorem read_invariant (hset : ∀ s d, Inv s → Inv (P.setup s d)) {k w : ℕ} {d : List β} {s : σ}
    (hs : Inv s) : Inv (P.read k w d s).2 := collectIn_invariant hout hin (hset s d hs)

theorem write_invariant (hset : ∀ s d, Inv s → Inv (P.setup s d)) {d : List β}
    {ps : List (List β)} {s : σ} (hs : Inv s) : Inv (P.write d ps s).2 :=
  sendOut_invariant hout hin (hset s d hs)

end Invariant

/-! A machine inside another, as long as an invariant holds: the transfers of the one are those
of the other. -/

/-- In the states with `Inv`, the port of `σ` is that of `τ` seen through `f`. -/
structure Embeds {τ : Type*} (Q : Port τ β) (f : σ → τ) (Inv : σ → Prop) : Prop where
  out : ∀ s p, Inv s → Inv (P.out s p) ∧ Q.out (f s) p = f (P.out s p)
  inComplete : ∀ s, Inv s → Inv (P.inComplete s) ∧ Q.inComplete (f s) = f (P.inComplete s)
  stalled : ∀ s, Q.stalled (f s) = P.stalled s
  ready : ∀ s, Q.ready (f s) = P.ready s
  accepts : ∀ s, Q.accepts (f s) = P.accepts s

section Embeds

variable {P} {τ : Type*} {Q : Port τ β} {f : σ → τ} {Inv : σ → Prop} (h : P.Embeds Q f Inv)
include h

theorem Embeds.statusOut {s : σ} (hs : Inv s) (d : List β) :
    Q.statusOut d (f s) = ((P.statusOut d s).1, f (P.statusOut d s).2) ∧
      Inv (P.statusOut d s).2 := by
  obtain ⟨hinv, hout⟩ := h.out s [] hs
  unfold Port.statusOut
  rw [h.stalled, h.accepts, hout]
  repeat' split
  all_goals exact ⟨rfl, by assumption⟩

theorem Embeds.statusIn {s : σ} (hs : Inv s) :
    Q.statusIn (f s) = ((P.statusIn s).1, f (P.statusIn s).2) ∧ Inv (P.statusIn s).2 := by
  obtain ⟨hinv, hin⟩ := h.inComplete s hs
  unfold Port.statusIn
  rw [h.stalled, h.ready, hin]
  repeat' split
  all_goals exact ⟨rfl, by assumption⟩

theorem Embeds.collectIn {k w fuel : ℕ} {toggle : Bool} {got : List β} {s : σ} (hs : Inv s) :
    Q.collectIn k w fuel toggle got (f s) =
        ((P.collectIn k w fuel toggle got s).1, f (P.collectIn k w fuel toggle got s).2) ∧
      Inv (P.collectIn k w fuel toggle got s).2 := by
  induction fuel generalizing toggle got s with
  | zero => exact ⟨rfl, hs⟩
  | succ fuel ih =>
    obtain ⟨hinv, hin⟩ := h.inComplete s hs
    unfold Port.collectIn
    rw [h.stalled, h.ready, hin]
    repeat' split
    all_goals first | exact ⟨rfl, hs⟩ | exact h.statusOut hinv _ | exact ih hinv

theorem Embeds.sendOut {ps : List (List β)} {toggle : Bool} {s : σ} (hs : Inv s) :
    Q.sendOut ps toggle (f s) = ((P.sendOut ps toggle s).1, f (P.sendOut ps toggle s).2) ∧
      Inv (P.sendOut ps toggle s).2 := by
  induction ps generalizing toggle s with
  | nil => exact h.statusIn hs
  | cons p ps ih =>
    obtain ⟨hinv, hout⟩ := h.out s p hs
    unfold Port.sendOut
    rw [h.stalled, h.accepts, hout]
    repeat' split
    all_goals first | exact ⟨rfl, hs⟩ | exact ih hinv

theorem Embeds.read {k w : ℕ} {d : List β} {s : σ} (hs : Inv (P.setup s d))
    (hset : Q.setup (f s) d = f (P.setup s d)) :
    Q.read k w d (f s) = ((P.read k w d s).1, f (P.read k w d s).2) := by
  rw [Port.read, hset]
  exact (h.collectIn hs).1

theorem Embeds.write {d : List β} {s : σ} (hs : Inv (P.setup s d))
    (hset : Q.setup (f s) d = f (P.setup s d)) (ps : List (List β)) :
    Q.write d ps (f s) = ((P.write d ps s).1, f (P.write d ps s).2) := by
  rw [Port.write, hset]
  exact (h.sendOut hs).1

end Embeds

/-! A device that loads the packets of an answer one after the other. -/

/-- From `s` on the device loads the packets of `m` cells of `b`, for a host that asked for `w`,
and takes the status packet after the last of them. -/
structure Streams (b : ℕ → β) (k m w : ℕ) (s : σ) : Prop where
  packet : ∀ i ≤ lastPacket k m w, P.stalled (P.inComplete^[i] s) = false ∧
    P.ready (P.inComplete^[i] s) = some (decide (i % 2 = 0), Machine.packet b k m i)
  status : P.stalled (P.inComplete^[lastPacket k m w + 1] s) = false ∧
    P.accepts (P.inComplete^[lastPacket k m w + 1] s) = some true

section Streams

variable {P} {b : ℕ → β} {k m w : ℕ} {s : σ}

theorem ends_iff (hk : 0 < k) (hm : m ≤ w) (hw : 0 < w) {i : ℕ} (hi : i ≤ lastPacket k m w) :
    (Machine.packet b k m i).length < k ∨ w ≤ (slice b 0 (min m (k * (i + 1)))).length ↔
      i = lastPacket k m w := by
  obtain ⟨h₁, h₂, h₃, h₄⟩ := lastPacket_bounds hk hm
  rw [length_packet, length_slice, Nat.mul_succ]
  constructor
  · intro hend
    by_contra hne
    have hlt : i < lastPacket k m w := by omega
    have hfull := packet_full hk hm hlt
    have hmul : k * (i + 1) ≤ k * lastPacket k m w := Nat.mul_le_mul_left k hlt
    rw [Nat.mul_succ] at hfull hmul
    omega
  · intro hlast
    subst hlast
    omega

/-- The host's loop, from packet `i` on. -/
theorem Streams.collectIn (h : P.Streams b k m w s) (hk : 0 < k) (hm : m ≤ w) (hw : 0 < w)
    {i fuel : ℕ} (hi : i ≤ lastPacket k m w) (hfuel : lastPacket k m w < i + fuel) :
    P.collectIn k w fuel (decide (i % 2 = 0)) (slice b 0 (min m (k * i)))
        (P.inComplete^[i] s) =
      (.data (slice b 0 m), P.out (P.inComplete^[lastPacket k m w + 1] s) []) := by
  induction fuel generalizing i with
  | zero => omega
  | succ fuel ih =>
    obtain ⟨hrun, hload⟩ := h.packet i hi
    have hnext : P.inComplete (P.inComplete^[i] s) = P.inComplete^[i + 1] s :=
      (Function.iterate_succ_apply' P.inComplete i s).symm
    have hgot : slice b 0 (min m (k * i)) ++ Machine.packet b k m i =
        slice b 0 (min m (k * (i + 1))) := by
      rw [← flatten_packet, ← flatten_packet, List.range_succ, List.map_append,
        List.flatten_append]
      simp
    have hends := ends_iff (b := b) hk hm hw hi
    have hflip : (!decide (i % 2 = 0)) = decide ((i + 1) % 2 = 0) := by
      by_cases hpar : i % 2 = 0 <;> simp [hpar] <;> omega
    rw [Port.collectIn, hrun, hload]
    simp only [Bool.false_eq_true, if_false, if_true, hgot, hnext, hends, hflip]
    split
    · rename_i hlast
      obtain ⟨hstall, hacc⟩ := h.status
      have hall : min m (k * (i + 1)) = m := by
        have hb := (lastPacket_bounds hk hm).2.1
        rw [hlast, Nat.mul_succ]
        omega
      rw [hall, hlast, statusOut, hstall, hacc]
      simp
    · rename_i hmore
      exact ih (by omega) (by omega)

/-- A control read brings the whole answer, cut to what was asked for. -/
theorem Streams.read {d : List β} (h : P.Streams b k m w (P.setup s d)) (hk : 0 < k)
    (hm : m ≤ w) (hw : 0 < w) :
    P.read k w d s = (.data (slice b 0 m),
      P.out (P.inComplete^[lastPacket k m w + 1] (P.setup s d)) []) := by
  have hlast : lastPacket k m w ≤ w / k := by
    unfold lastPacket
    split
    · exact Nat.div_le_div_right hm
    · exact Nat.div_le_div_right (by omega)
  have hloop := h.collectIn hk hm hw (Nat.zero_le (lastPacket k m w))
    (show lastPacket k m w < 0 + (w / k + 1) by omega)
  rw [Port.read]
  simpa [slice] using hloop

theorem read_of_stalled {d : List β} (h : P.stalled (P.setup s d) = true) :
    P.read k w d s = (.stalled, P.setup s d) := by
  rw [Port.read, Port.collectIn, if_pos h]

end Streams

/-! A device that takes the packets of a control write. -/

/-- From `s` on the device takes the packets `ps`, the first of them with toggle `toggle`. -/
def Takes (ps : List (List β)) (toggle : Bool) (s : σ) : Prop :=
  ∀ i < ps.length, P.stalled ((ps.take i).foldl P.out s) = false ∧
    P.accepts ((ps.take i).foldl P.out s) = some (toggle ^^ decide (i % 2 = 1))

variable {P}

theorem Takes.sendOut {ps : List (List β)} {toggle : Bool} {s : σ} (h : P.Takes ps toggle s) :
    P.sendOut ps toggle s = P.statusIn (ps.foldl P.out s) := by
  induction ps generalizing toggle s with
  | nil => rfl
  | cons p ps ih =>
    obtain ⟨hrun, hacc⟩ := h 0 (by simp)
    have hrest : P.Takes ps (!toggle) (P.out s p) := by
      intro i hi
      obtain ⟨hrun', hacc'⟩ := h (i + 1) (by simp [hi])
      have hflip : (toggle ^^ decide ((i + 1) % 2 = 1)) = (!toggle ^^ decide (i % 2 = 1)) := by
        by_cases hpar : i % 2 = 1
        · have hnext : ¬(i + 1) % 2 = 1 := by omega
          simp [hpar, hnext]
        · have hnext : (i + 1) % 2 = 1 := by omega
          simp [hpar, hnext]
      rw [hflip] at hacc'
      exact ⟨hrun', hacc'⟩
    have hrun₀ : P.stalled s = false := hrun
    have hacc₀ : P.accepts s = some toggle := by simpa using hacc
    rw [Port.sendOut, hrun₀, hacc₀]
    simpa using ih hrest

theorem Takes.write {ps : List (List β)} {d : List β} {s : σ}
    (h : P.Takes ps true (P.setup s d)) :
    P.write d ps s = P.statusIn (ps.foldl P.out (P.setup s d)) := h.sendOut

end Port

end Swindle.Machine
