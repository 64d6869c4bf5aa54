import Swindle.Dfu.Leave
import Swindle.Session.Transfer

/-! The host against the loop of stage 2. A transfer that cannot lead to dfuMANIFEST runs as it
does against the bare poll; after the reset nothing answers. -/
namespace Swindle
open Machine

namespace Loop

/-- One iteration of `runDfu`. -/
def poll (c : Device) : Loop → Event → Loop
  | polling s, e =>
    if (step c s e).dfu.usbdfuState = .dfuManifest then fullSystemReset (step c s e)
    else polling (step c s e)
  | fullSystemReset s, _ => fullSystemReset s

theorem run_poll_reset (c : Device) (s : State) (es : List Event) :
    run (poll c) (fullSystemReset s) es = fullSystemReset s := by
  induction es with
  | nil => rfl
  | cons e es ih => exact ih

theorem run_poll (c : Device) (s : State) (es : List Event) :
    run (poll c) (polling s) es = runDfu c s es := by
  induction es generalizing s with
  | nil => rfl
  | cons e es ih =>
    rw [run_cons, poll, runDfu]
    split
    · exact run_poll_reset c _ es
    · exact ih _

theorem poll_of_staying {c : Device} {s : State} {e : Event}
    (h : (step c s e).dfu.usbdfuState ≠ .dfuManifest) :
    (polling s).poll c e = polling (step c s e) := if_neg h

/-- Endpoint 0 of a device in the loop. A device that has been reset is off the bus. -/
def port (c : Device) : Port Loop Byte where
  setup l d := l.poll c (.setup d)
  out l d := l.poll c (.out d)
  inComplete l := l.poll c .inComplete
  stalled
    | polling s => (State.port c).stalled s
    | fullSystemReset _ => false
  ready
    | polling s => (State.port c).ready s
    | fullSystemReset _ => none
  accepts
    | polling s => (State.port c).accepts s
    | fullSystemReset _ => none

/-! A reset cuts the transfer off. -/

theorem read_of_reset {c : Device} {l : Loop} {d : List Byte} {t : State}
    (h : l.poll c (.setup d) = fullSystemReset t) (k w : ℕ) :
    (port c).read k w d l = (.noAnswer, fullSystemReset t) := by
  have hset : (port c).setup l d = fullSystemReset t := h
  rw [Port.read, hset, Port.collectIn]
  rfl

theorem write_of_reset {c : Device} {l : Loop} {d : List Byte} {t : State}
    (h : l.poll c (.setup d) = fullSystemReset t) (ps : List (List Byte)) :
    (port c).write d ps l = (.noAnswer, fullSystemReset t) := by
  have hset : (port c).setup l d = fullSystemReset t := h
  rw [Port.write, hset]
  cases ps with
  | nil =>
    rw [Port.sendOut, Port.statusIn]
    rfl
  | cons p ps =>
    rw [Port.sendOut]
    rfl

end Loop

/-! Transfers that do not end the loop. -/

/-- Stage 2 stays in its loop, whatever packets complete the transfer under way. -/
structure Calm (s : State) : Prop where
  polling : s.dfu.usbdfuState ≠ .dfuManifest
  pending : s.Expecting → ¬s.usbReq.Asks .detach ∧ ¬s.usbReq.Asks .getstatus

section Calm

variable {c : Device} {s : State}

theorem Calm.not_takes {r : DfuReq} (h : Calm s) (p : List Byte)
    (hr : r = .detach ∨ r = .getstatus) : ¬s.Takes r (.out p) := by
  rintro ⟨hd, hasks⟩
  obtain ⟨hdet, hget⟩ := h.pending (.inr hd.1)
  rcases hr with rfl | rfl
  · exact hdet hasks
  · exact hget hasks

theorem Calm.out (h : Calm s) (p : List Byte) : Calm (step c s (.out p)) := by
  constructor
  · refine mt (manifest_step_iff h.polling).mp ?_
    rintro (hr | ⟨hr, -⟩)
    · exact h.not_takes p (.inl rfl) hr
    · exact h.not_takes p (.inr rfl) hr
  · intro hexp
    have hreq : (step c s (.out p)).usbReq = s.usbReq := step_usbReq c s (.out p)
    rw [hreq]
    exact h.pending (.inl (out_expecting c s p hexp).1)

theorem Calm.inComplete (h : Calm s) : Calm (step c s .inComplete) := by
  constructor
  · refine mt (manifest_step_iff h.polling).mp ?_
    rintro (hr | ⟨hr, -⟩) <;> exact hr.1.elim
  · intro hexp
    exact absurd hexp (in_not_expecting c s)

theorem Calm.reset (h : Calm s) : Calm (step c s .reset) := by
  constructor
  · refine mt (manifest_step_iff h.polling).mp ?_
    rintro (hr | ⟨hr, -⟩) <;> exact hr.1.elim
  · rw [step_reset]
    exact h.pending

theorem expecting_writes {d : List Byte} (h : (step c s (.setup d)).Expecting) :
    (s.requestOf (.setup d)).Writes := by
  obtain ⟨-, hw, -⟩ := setup_expecting c s d h
  refine ⟨?_, hw⟩
  by_contra hin
  by_cases hlen : (setupBytes d).length = 8
  · have hd : s.Dispatches (.setup d) := ⟨hlen, .inr hin⟩
    by_cases hq : (s.handling c (.setup d)).1 = .notsupp
    · rw [State.step_of_refused c hd hq] at h
      rcases h with hf | hf <;> cases hf
    · have hans := (State.step_of_taken c hd hq).1
      rcases h with hf | hf <;> rcases hans with ha | ha | ha <;> cases hf.symm.trans ha
  · rw [step_setup_eq, if_pos hlen] at h
    rcases h with hf | hf <;> cases hf

theorem calm_setup {d : List Byte} (h : s.dfu.usbdfuState ≠ .dfuManifest)
    (hdet : ¬(s.requestOf (.setup d)).Asks .detach)
    (hget : (s.requestOf (.setup d)).Asks .getstatus → s.dfu.usbdfuState ≠ .dfuManifestSync ∧
      ¬(s.requestOf (.setup d)).Writes) : Calm (step c s (.setup d)) := by
  constructor
  · refine mt (manifest_step_iff h).mp ?_
    rintro (hr | ⟨hr, hsync⟩)
    · exact hdet hr.2
    · exact (hget hr.2).1 hsync
  · intro hexp
    have hreq : (step c s (.setup d)).usbReq = s.requestOf (.setup d) := step_usbReq c s (.setup d)
    rw [hreq]
    exact ⟨hdet, fun hasks => (hget hasks).2 (expecting_writes hexp)⟩

theorem port_embeds (c : Device) : (State.port c).Embeds (Loop.port c) Loop.polling Calm where
  out _ p h := ⟨h.out p, Loop.poll_of_staying (h.out p).polling⟩
  inComplete _ h := ⟨h.inComplete, Loop.poll_of_staying h.inComplete.polling⟩
  stalled _ := rfl
  ready _ := rfl
  accepts _ := rfl

end Calm

end Swindle
