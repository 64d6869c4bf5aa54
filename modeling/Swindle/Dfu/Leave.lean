import Swindle.Dfu.Execute
import Swindle.Usb.Outer

/-! How the loop of stage 2 ends. It resets in dfuMANIFEST, which a DETACH enters at once and a
GET_STATUS enters from dfuMANIFEST-SYNC. -/
namespace Swindle
open Machine

def State.Takes (s : State) (r : DfuReq) (e : Event) : Prop :=
  s.Dispatches e ∧ (s.requestOf e).Asks r

instance (s : State) (r : DfuReq) : DecidablePred (s.Takes r) := fun _ =>
  inferInstanceAs (Decidable (_ ∧ _))

/-- Whether the host wants to leave: a DNLOAD without data says so, and one with data, an UPLOAD
or an ABORT takes it back. -/
def DfuReq.leaves : DfuReq → BitVec 16 → Bool → Bool
  | .dnload, wLength, _ => wLength = 0#16
  | .upload, _, _ => false
  | .abort, _, _ => false
  | _, _, b => b

def State.noteLeaving (s : State) (e : Event) (b : Bool) : Bool :=
  if s.Dispatches e ∧ (s.requestOf e).isDfu then
    match DfuReq.ofByte (s.requestOf e).bRequest with
    | some r => r.leaves (s.requestOf e).wLength b
    | none => b
  else b

section Step

variable {c : Device} {s : State} {e : Event} {r : DfuReq}

theorem step_of_takes (h : s.Takes r e) :
    (step c s e).dfu = (usbdfuControlRequest c (s.requestOf e) (s.ioOf e)).2.dfu := by
  obtain ⟨hd, hdfu, hcode⟩ := h
  have hreq : (s.handed e).usbReq = s.requestOf e := s.handed_usbReq e
  have hio : (s.handed e).dfuIo = s.ioOf e := by
    cases e with
    | setup d => rfl
    | out d => rfl
    | inComplete => exact hd.elim
    | reset => exact hd.elim
  have hdis : s.handling c e = _ := State.dispatch_of_dfu c (by rwa [hreq])
  have htaken : (s.handling c e).1 ≠ .notsupp := by
    rw [hdis, hreq, hcode]
    simp
  rw [(State.step_of_taken c hd htaken).2.1, hdis, hreq, hio]
  rfl

theorem state_of_not_takes (h : ∀ r, ¬s.Takes r e) :
    (step c s e).dfu.usbdfuState = s.dfu.usbdfuState ∨
      s.dfu.usbdfuState = .dfuDnbusy ∧ (step c s e).dfu.usbdfuState = .dfuDnloadIdle := by
  rcases dfu_cases c s e with hq | ⟨r, hr, hd⟩ | ⟨hc, hb⟩
  · left
    rw [hq]
    rfl
  · have hreq : (step c s e).usbReq = s.requestOf e := step_usbReq c s e
    exact absurd ⟨hd, hreq ▸ hr.isDfu, hreq ▸ hr.code⟩ (h r)
  · right
    rw [hc.of_busy hb]
    exact ⟨hb, rfl⟩

theorem takes_unique {r' : DfuReq} (h : s.Takes r e) (h' : s.Takes r' e) : r = r' :=
  Option.some.inj (h.2.2.symm.trans h'.2.2)

theorem manifest_step_iff (hs : s.dfu.usbdfuState ≠ .dfuManifest) :
    (step c s e).dfu.usbdfuState = .dfuManifest ↔
      s.Takes .detach e ∨ s.Takes .getstatus e ∧ s.dfu.usbdfuState = .dfuManifestSync := by
  by_cases h : ∃ r, s.Takes r e
  · obtain ⟨r, hr⟩ := h
    have hcode := hr.2.2
    have hio : (s.ioOf e).dfu.usbdfuState = s.dfu.usbdfuState := rfl
    have honly : ∀ r', s.Takes r' e ↔ r' = r := fun r' =>
      ⟨fun h' => takes_unique h' hr, fun h' => h' ▸ hr⟩
    rw [step_of_takes hr, honly, honly]
    cases r with
    | detach =>
      rw [usbdfuControlRequest, hcode]
      simp
    | getstatus =>
      rw [usbdfuControlRequest, hcode]
      change (usbdfuGetstatus s.dfu.usbdfuState).1 = _ ↔ _
      cases hd : s.dfu.usbdfuState with
      | dfuManifest => exact absurd hd hs
      | _ => simp [usbdfuGetstatus]
    | dnload =>
      rw [controlRequest_state_of_dnload c _ hcode rfl]
      split <;> simp
    | upload =>
      rcases controlRequest_state_of_upload c (s.ioOf e) hcode rfl with hu | hu <;> rw [hu] <;> simp
    | clrstatus =>
      rw [usbdfuControlRequest, hcode]
      change (if s.dfu.usbdfuState = .dfuError then DfuState.dfuIdle else s.dfu.usbdfuState) = _ ↔ _
      split <;> simp [hs]
    | abort =>
      rw [usbdfuControlRequest, hcode]
      simp
    | getstate =>
      rw [usbdfuControlRequest, hcode]
      change s.dfu.usbdfuState = _ ↔ _
      simp [hs]
  · have hno : ∀ r, ¬s.Takes r e := fun r hr => h ⟨r, hr⟩
    refine iff_of_false ?_ ?_
    · rcases state_of_not_takes (c := c) hno with hk | ⟨-, hk⟩
      · rwa [hk]
      · simp [hk]
    · rintro (hr | ⟨hr, -⟩)
      · exact hno _ hr
      · exact hno _ hr

end Step

/-! The wish to leave is what dfuMANIFEST-SYNC stands for. -/

/-- Before the reset: the state is dfuMANIFEST-SYNC exactly if the host wants to leave. -/
structure Staying (s : State) (b : Bool) : Prop where
  sync : s.dfu.usbdfuState = .dfuManifestSync ↔ b = true
  polling : s.dfu.usbdfuState ≠ .dfuManifest

theorem noteLeaving_of_not_takes {s : State} {e : Event} (h : ∀ r, ¬s.Takes r e) (b : Bool) :
    s.noteLeaving e b = b := by
  unfold State.noteLeaving
  split
  · rename_i hd
    have hnone : DfuReq.ofByte (s.requestOf e).bRequest = none := by
      cases hr : DfuReq.ofByte (s.requestOf e).bRequest with
      | none => rfl
      | some r => exact absurd ⟨hd.1, hd.2, hr⟩ (h r)
    rw [hnone]
  · rfl

theorem noteLeaving_of_takes {s : State} {e : Event} {r : DfuReq} (h : s.Takes r e) (b : Bool) :
    s.noteLeaving e b = r.leaves (s.requestOf e).wLength b := by
  have hif : s.noteLeaving e b = _ := if_pos ⟨h.1, h.2.1⟩
  rw [hif, h.2.2]

theorem staying_step (c : Device) {s : State} {e : Event} {b : Bool} (h : Staying s b)
    (hno : (step c s e).dfu.usbdfuState ≠ .dfuManifest) :
    Staying (step c s e) (s.noteLeaving e b) := by
  refine ⟨?_, hno⟩
  by_cases htakes : ∃ r, s.Takes r e
  · obtain ⟨r, hr⟩ := htakes
    have hcode := hr.2.2
    have hleft := mt (manifest_step_iff (c := c) h.polling).mpr hno
    rw [noteLeaving_of_takes hr, step_of_takes hr]
    cases r with
    | detach => exact absurd (.inl hr) hleft
    | getstatus =>
      have hsync : s.dfu.usbdfuState ≠ .dfuManifestSync := fun hs => hleft (.inr ⟨hr, hs⟩)
      change _ ↔ b = true
      rw [← h.sync, usbdfuControlRequest, hcode]
      change (usbdfuGetstatus s.dfu.usbdfuState).1 = _ ↔ _
      cases hd : s.dfu.usbdfuState with
      | dfuManifestSync => exact absurd hd hsync
      | _ => simp [usbdfuGetstatus]
    | dnload =>
      have hlen : (s.ioOf e).len = (s.requestOf e).wLength := rfl
      rw [controlRequest_state_of_dnload c _ hcode rfl, hlen]
      split <;> simp [DfuReq.leaves, *]
    | upload =>
      rcases controlRequest_state_of_upload c (s.ioOf e) hcode rfl with hu | hu <;> rw [hu] <;>
        simp [DfuReq.leaves]
    | clrstatus =>
      change _ ↔ b = true
      rw [← h.sync, usbdfuControlRequest, hcode]
      change (if s.dfu.usbdfuState = .dfuError then DfuState.dfuIdle else s.dfu.usbdfuState) = _ ↔ _
      split <;> simp [*]
    | abort =>
      rw [usbdfuControlRequest, hcode]
      simp [DfuReq.leaves]
    | getstate =>
      change _ ↔ b = true
      rw [← h.sync, usbdfuControlRequest, hcode]
      rfl
  · have hnone : ∀ r, ¬s.Takes r e := fun r hr => htakes ⟨r, hr⟩
    rw [noteLeaving_of_not_takes hnone, ← h.sync]
    rcases state_of_not_takes (c := c) hnone with hk | ⟨hb, hk⟩
    · rw [hk]
    · rw [hk, hb]
      simp

/-! The loop. -/

/-- The poll in which the host makes stage 2 reset: a DETACH, or a GET_STATUS after it said that
it wants to leave. -/
def AsksReset (p : State × Bool) (e : Event) : Prop :=
  p.1.Takes .detach e ∨ p.1.Takes .getstatus e ∧ p.2 = true

theorem asksReset_iff (c : Device) {s : State} {b : Bool} {e : Event} (h : Staying s b) :
    AsksReset (s, b) e ↔ (step c s e).dfu.usbdfuState = .dfuManifest := by
  rw [manifest_step_iff h.polling, h.sync]
  rfl

theorem runDfu_iff (c : Device) {s : State} {b : Bool} (h : Staying s b) (es : List Event) :
    (∃ t, runDfu c s es = .fullSystemReset t) ↔
      Meets (watch (step c) State.noteLeaving) AsksReset (s, b) es := by
  induction es generalizing s b with
  | nil =>
    refine iff_of_false ?_ id
    rintro ⟨t, ht⟩
    cases ht
  | cons e es ih =>
    rw [Meets, asksReset_iff c h, runDfu]
    split
    · rename_i hm
      exact iff_of_true ⟨_, rfl⟩ (.inl hm)
    · rename_i hm
      rw [ih (staying_step c h hm)]
      exact (or_iff_right hm).symm

/-- Whatever the host sends, in whatever order: stage 2 resets if and only if the host detaches
it, or polls the status after a DNLOAD without data that it has not taken back. -/
theorem resets_iff (c : Device) (mem : Addr → Byte) (ram : ℕ → Byte) (es : List Event) :
    (∃ t, runDfu c (State.start mem ram) es = .fullSystemReset t) ↔
      Meets (watch (step c) State.noteLeaving) AsksReset (State.start mem ram, false) es := by
  have hstart : Staying (State.start mem ram) false := by
    constructor
    · simp [State.start]
    · simp [State.start]
  exact runDfu_iff c hstart es

end Swindle
