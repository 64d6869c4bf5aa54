import Swindle.Download.Block
import Swindle.Usb.Alike
import Swindle.Usb.Stage

/-! Safe-write builds: from the first operation on, the flash is what the host has sent, whatever
was installed before. -/
namespace Swindle
open Machine

/-! An operation depends on the flash through its content and the latch alone. -/

section Flash

variable (c : Device) {f g : Flash}

/-- Two flashes between unlock and lock that hold the same. -/
structure Flash.Same (f g : Flash) : Prop where
  idle : f.Idle false
  idle' : g.Idle false
  mem : f.mem = g.mem

theorem Flash.Same.eraseUnlessBlank (h : f.Same g) (page : Addr) :
    (eraseUnlessBlank c page f).Same (eraseUnlessBlank c page g) := by
  refine ⟨(eraseUnlessBlank_cr c h.idle page).1.trans h.idle,
    (eraseUnlessBlank_cr c h.idle' page).1.trans h.idle', ?_⟩
  unfold Swindle.eraseUnlessBlank
  rw [h.mem]
  split
  · exact h.mem
  · rw [Flash.erasePage_eq h.idle, Flash.erasePage_eq h.idle']
    dsimp only
    rw [h.mem]

theorem Flash.Same.erasePages (limit : Addr) (fuel : ℕ) (page : Addr) (h : f.Same g) :
    (erasePages c limit fuel page f).Same (erasePages c limit fuel page g) := by
  induction fuel generalizing page f g with
  | zero => exact h
  | succ fuel ih =>
    rw [erasePages_succ, erasePages_succ]
    split
    · exact ih _ (h.eraseUnlessBlank c page)
    · exact h

theorem touched_of_inApp {x : Addr} (h : InApp c x) : Touched c startAddr (endAddr c) x := by
  refine ⟨Nat.div_le_div_right h.1, ?_⟩
  have hdiv := Nat.div_mul_le_self x.toNat c.getFlashPageSize
  exact Nat.lt_of_le_of_lt hdiv h.2

/-- The two flashes of devices that differ in the application until the wipe. -/
structure Flash.Twin (c : Device) (f g : Flash) : Prop where
  erased : f.erased = g.erased
  outside : ∀ x, ¬InApp c x → f.mem x = g.mem x
  same : f.erased → f.mem = g.mem

theorem Flash.Twin.wiped_eq (hs : c.enableSafewrite) (h : f.Twin c g) : wiped c f = wiped c g := by
  cases he : f.erased with
  | true =>
    rw [wiped_of_erased c fun _ => he, wiped_of_erased c fun _ => h.erased ▸ he, h.same he]
  | false =>
    have hg : g.erased = false := h.erased ▸ he
    funext x
    simp only [wiped, hs, he, hg, Bool.not_false, Bool.and_true, if_true, Nor.erase]
    by_cases ht : Touched c startAddr (endAddr c) x
    · simp [ht]
    · simp [ht, h.outside x fun hx => ht (touched_of_inApp c hx)]

theorem Flash.Twin.safewrite (hs : c.enableSafewrite) (h : f.Twin c g) (hf : f.Idle false)
    (hg : g.Idle false) : (safewrite c f).Same (safewrite c g) := by
  refine ⟨safewrite_idle c hf, safewrite_idle c hg, ?_⟩
  rw [safewrite_mem c hf, safewrite_mem c hg, h.wiped_eq c hs]

end Flash

section Operation

variable (c : Device) (p : Prog) {f g : Flash}

/-- The operation is an ERASE or a data block: it gets as far as the wipe. -/
def Prog.operates : Bool := p.blocknum ≠ 0#16 || p.buf 0 = cmdErase

theorem executeErase_same (hs : c.enableSafewrite) (h : f.Twin c g) (hf : f.Idle false)
    (hg : g.Idle false) : (executeErase c p f).mem = (executeErase c p g).mem ∧
      (executeErase c p f).erased ∧ (executeErase c p g).erased := by
  have hsame := h.safewrite c hs hf hg
  have he := safewrite_erased c (f := f) hs
  have he' := safewrite_erased c (f := g) hs
  unfold executeErase
  dsimp only
  rw [hsame.mem]
  split
  · split
    · exact ⟨hsame.mem, he, he'⟩
    · rw [Flash.erasePage_eq hsame.idle, Flash.erasePage_eq hsame.idle', hsame.mem]
      exact ⟨rfl, he, he'⟩
  · exact ⟨hsame.mem, he, he'⟩

theorem executeBlock_same (hs : c.enableSafewrite) (h : f.Twin c g) (hf : f.Idle false)
    (hg : g.Idle false) : (executeBlock c p f).mem = (executeBlock c p g).mem ∧
      (executeBlock c p f).erased ∧ (executeBlock c p g).erased := by
  have hsame := h.safewrite c hs hf hg
  have he := safewrite_erased c (f := f) hs
  have he' := safewrite_erased c (f := g) hs
  cases hc : addressCheck c p.base p.length with
  | false =>
    rw [executeBlock_refused c p hc, executeBlock_refused c p hc]
    exact ⟨hsame.mem, he, he'⟩
  | true =>
    have hpages := hsame.erasePages c (p.base + p.length) p.len.toNat p.base
    have hp := executeBlock_programmed c p hf hc
    have hp' := executeBlock_programmed c p hg hc
    rw [hp.mem, hp'.mem, hp.erased, hp'.erased, Prog.erased, Prog.erased, hpages.mem,
      (erasePages_cr c _ _ _ hsame.idle).2, (erasePages_cr c _ _ _ hsame.idle').2]
    exact ⟨rfl, he, he'⟩

theorem flashAfter_same (hs : c.enableSafewrite) (hop : p.operates) (h : f.Twin c g)
    (hf : f.Idle false) (hg : g.Idle false) :
    (p.flashAfter c f).mem = (p.flashAfter c g).mem ∧
      (p.flashAfter c f).erased ∧ (p.flashAfter c g).erased := by
  unfold Prog.flashAfter
  split
  · rename_i hb
    have he : p.buf 0 = cmdErase := by simpa [Prog.operates, hb] using hop
    simp only [if_pos he]
    exact executeErase_same c p hs h hf hg
  · exact executeBlock_same c p hs h hf hg

theorem flashAfter_of_not_operates (hop : ¬p.operates) (f : Flash) : p.flashAfter c f = f := by
  have hop' : p.blocknum = 0#16 ∧ p.buf 0 ≠ cmdErase := by simpa [Prog.operates] using hop
  unfold Prog.flashAfter
  rw [if_pos hop'.1, if_neg hop'.2]

end Operation

/-- The poll executes an ERASE or a data block. -/
def State.Operates (s : State) (e : Event) : Prop := s.Executes e ∧ s.dfu.prog.operates

instance (s : State) : DecidablePred s.Operates := fun _ => inferInstanceAs (Decidable (_ ∧ _))

/-- The condition: where flash can be uploaded, a DNLOAD with data comes with its data stage. -/
def OwnPayload (c : Device) (s : State) : Event → Prop
  | .setup d => c.enableDfuUpload → s.Dispatches (.setup d) →
      (s.requestOf (.setup d)).Asks .dnload → (s.requestOf (.setup d)).wLength = 0#16
  | _ => True

instance (c : Device) (s : State) : DecidablePred (OwnPayload c s)
  | .setup _ => inferInstanceAs (Decidable (_ → _ → _ → _))
  | .out _ => isTrue trivial
  | .inComplete => isTrue trivial
  | .reset => isTrue trivial

/-- Two devices that differ in the application at most, and in what they have uploaded. -/
structure Twins (c : Device) (s t : State) : Prop where
  alike : Alike c s t
  staged : s.Expecting → s.Staged
  collected : s.Expecting → ∀ i < s.datasize.toNat, t.usbdControlBuffer i = s.usbdControlBuffer i
  flash : s.dfu.flash.Twin c t.dfu.flash
  locked : s.dfu.flash.Idle true
  locked' : t.dfu.flash.Idle true

section Run

variable (c : Device) {s t : State} {e : Event}

theorem Twins.blit (h : Twins c s t) (hexp : s.Expecting) {d : List Byte}
    (hfit : s.packetsize.toNat ≤ d.length % 1024) {i : ℕ}
    (hi : i < s.datasize.toNat + s.packetsize.toNat) :
    Machine.blit s.datasize.toNat (s.dataBytes d) t.usbdControlBuffer i =
      Machine.blit s.datasize.toNat (s.dataBytes d) s.usbdControlBuffer i := by
  by_cases hlt : i < s.datasize.toNat
  · rw [blit_of_lt _ _ hlt, blit_of_lt _ _ hlt]
    exact h.collected hexp i hlt
  · obtain ⟨j, rfl⟩ := Nat.exists_eq_add_of_le (Nat.not_lt.mp hlt)
    have hl := s.length_dataBytes d
    rw [blit_add, blit_add, List.getD_eq_getElem _ _ (by omega),
      List.getD_eq_getElem _ _ (by omega)]

theorem Twins.shares (h : Twins c s t) (hown : OwnPayload c s e) :
    SharesPayloadAt c s t e := by
  intro hup hdis hasks i hi
  cases e with
  | reset => exact hdis.elim
  | inComplete => exact hdis.elim
  | setup d =>
    rw [hown hup hdis hasks] at hi
    cases hi
  | out d =>
    have hexp : s.Expecting := .inr hdis.1
    have hst := h.staged hexp
    have hp := hst.packetsize
    have hlast := hst.last hdis.1
    have hsize := hst.size
    have hi' : i < s.usbReq.wLength.toNat := hi
    have hbytes : t.dataBytes d = s.dataBytes d := by
      rw [State.dataBytes, State.dataBytes, State.packetsize, State.packetsize, h.alike.usbReq,
        h.alike.datasize]
    change Machine.blit t.datasize.toNat (t.dataBytes d) t.usbdControlBuffer i = _
    rw [hbytes, h.alike.datasize]
    exact h.blit c hexp hdis.2 (by omega)

theorem Twins.collected_step (h : Twins c s t) (hexp : (step c s e).Expecting) :
    ∀ i < (step c s e).datasize.toNat,
      (step c t e).usbdControlBuffer i = (step c s e).usbdControlBuffer i := by
  intro i hi
  cases e with
  | reset =>
    rw [step_reset] at hexp hi ⊢
    rw [step_reset]
    exact h.collected hexp i hi
  | inComplete => exact absurd hexp (in_not_expecting c s)
  | setup d =>
    rw [(setup_expecting c s d hexp).1] at hi
    cases hi
  | out d =>
    obtain ⟨hd, hfit, hstep⟩ := out_expecting c s d hexp
    have hsum := (h.staged (.inl hd)).sum
    have hpack : t.packetsize = s.packetsize := by
      rw [State.packetsize, State.packetsize, h.alike.usbReq, h.alike.datasize]
    have hbytes : t.dataBytes d = s.dataBytes d := by rw [State.dataBytes, hpack]; rfl
    have hd' : t.usbFsmState = .dataOut := h.alike.usbFsmState.trans hd
    have hi' : i < (s.datasize + s.packetsize).toNat := by
      rw [hstep] at hi
      exact hi
    rw [hstep, step_out_dataOut_eq c t d hd', hpack, if_pos hfit]
    change Machine.blit t.datasize.toNat (t.dataBytes d) t.usbdControlBuffer i = _
    rw [hbytes, h.alike.datasize]
    exact h.blit c (.inl hd) hfit (by omega)

theorem Twins.flash_step (hs : c.enableSafewrite) (h : Twins c s t) :
    (step c s e).dfu.flash.Twin c (step c t e).dfu.flash := by
  have hiff : t.Executes e ↔ s.Executes e := by
    have hstage : StatusStage t e ↔ StatusStage s e := by
      cases e <;> simp [StatusStage, h.alike.usbFsmState]
    rw [State.Executes, State.Executes, hstage, h.alike.usbCompleteCb, h.alike.usbdfuState]
  by_cases hx : s.Executes e
  · have hidle : (flashUnlock s.dfu.newPoll.flash).Idle false := Flash.idle_unlock h.locked
    have hidle' : (flashUnlock t.dfu.newPoll.flash).Idle false := Flash.idle_unlock h.locked'
    have htwin : (flashUnlock s.dfu.newPoll.flash).Twin c (flashUnlock t.dfu.newPoll.flash) :=
      ⟨h.flash.erased, h.flash.outside, h.flash.same⟩
    rw [flash_of_executes c h.locked hx, flash_of_executes c h.locked' (hiff.mpr hx), h.alike.prog]
    by_cases hop : s.dfu.prog.operates
    · obtain ⟨hmem, he, he'⟩ := flashAfter_same c s.dfu.prog hs hop htwin hidle hidle'
      exact ⟨he.trans he'.symm, fun x _ => congrFun hmem x, fun _ => hmem⟩
    · rw [flashAfter_of_not_operates c _ hop, flashAfter_of_not_operates c _ hop]
      exact ⟨htwin.erased, htwin.outside, htwin.same⟩
  · rw [flash_of_not_executes c hx, flash_of_not_executes c (mt hiff.mp hx)]
    exact ⟨h.flash.erased, h.flash.outside, h.flash.same⟩

theorem erased_step (hs : c.enableSafewrite) (hl : s.dfu.flash.Idle true)
    (h : s.dfu.flash.erased ∨ s.Operates e) : (step c s e).dfu.flash.erased := by
  by_cases hx : s.Executes e
  · rw [flash_of_executes c hl hx]
    by_cases hop : s.dfu.prog.operates
    · have hidle : (flashUnlock s.dfu.newPoll.flash).Idle false := Flash.idle_unlock hl
      exact (flashAfter_same c s.dfu.prog hs hop ⟨rfl, fun _ _ => rfl, fun _ => rfl⟩ hidle
        hidle).2.1
    · rw [flashAfter_of_not_operates c _ hop]
      exact h.resolve_right fun ho => hop ho.2
  · rw [flash_of_not_executes c hx]
    exact h.resolve_right fun ho => hx ho.1

theorem Twins.step (hs : c.enableSafewrite) (h : Twins c s t) (hown : OwnPayload c s e) :
    Twins c (step c s e) (step c t e) where
  alike := h.alike.step (h.shares c hown)
  staged := staged_step c s e h.staged
  collected := h.collected_step c
  flash := h.flash_step c hs
  locked := locked_step c s e h.locked
  locked' := locked_step c t e h.locked'

end Run

/-- Safe write: from the first ERASE or data block on, accepted or not, the flash no longer
depends on the application installed before. -/
theorem old_firmware_wiped {c : Device} (hs : c.enableSafewrite) {mem mem' : Addr → Byte}
    {ram : ℕ → Byte} {es : List Event} (hmem : ∀ x, ¬InApp c x → mem x = mem' x)
    (hown : Along (step c) (OwnPayload c) (State.start mem ram) es)
    (hop : Meets (step c) State.Operates (State.start mem ram) es) :
    (run (step c) (State.start mem ram) es).dfu.flash.mem =
      (run (step c) (State.start mem' ram) es).dfu.flash.mem := by
  have hstart : Twins c (State.start mem ram) (State.start mem' ram) := by
    refine ⟨⟨_, _, _, rfl, fun _ => ⟨rfl, rfl⟩⟩, ?_, ?_, ⟨rfl, hmem, nofun⟩, rfl, rfl⟩
    · rintro (h | h) <;> cases h
    · rintro (h | h) <;> cases h
  have hend : Twins c (run (step c) (State.start mem ram) es)
      (run (step c) (State.start mem' ram) es) :=
    run_rel (fun s t e h ho => h.step c hs ho) hstart hown
  have herased : (run (step c) (State.start mem ram) es).dfu.flash.erased :=
    run_of_meets (fun s e => locked_step c s e) (fun s e hl ho => erased_step c hs hl (.inr ho))
      (fun s e hl he => erased_step c hs hl (.inl he)) hstart.locked hop
  exact hend.flash.same herased

/-- A part with 12 KB of flash whose build has both options. -/
def Device.both12k : Device :=
  { density := 0xFFFF000C#32
    uniqueId := fun _ => 0#8
    enableDfuUpload := true
    enableSafewrite := true }

/-- Flash that holds `b` throughout the application area and is blank elsewhere. -/
def appFilled (c : Device) (b : Byte) (x : Addr) : Byte :=
  if startAddr.toNat ≤ x.toNat ∧ x.toNat < (endAddr c).toNat then b else 0xFF#8

theorem appFilled_outside (c : Device) (b b' : Byte) (x : Addr) (h : ¬InApp c x) :
    appFilled c b x = appFilled c b' x := (if_neg h).trans (if_neg h).symm

/-- A refused ERASE wipes the application all the same. -/
theorem old_firmware_wiped_refused :
    let c := Device.both12k
    let es := operation 0#16 [0x41#8, 0x00#8, 0x00#8, 0x00#8, 0x00#8]
    (run (step c) (State.start (appFilled c 0x55#8) fun _ => 0#8) es).dfu.flash.mem =
      (run (step c) (State.start (appFilled c 0xAA#8) fun _ => 0#8) es).dfu.flash.mem :=
  old_firmware_wiped rfl (appFilled_outside Device.both12k _ _) (by decide +kernel) (by decide +kernel)

/-- DFU_UPLOAD leaves the firmware in the buffer, a DNLOAD with the direction bit set takes it
from there, and after the wipe it is programmed again. -/
theorem firmware_survives_wipe :
    let c := Device.both12k
    let es := setAddr startAddr ++ [.setup (setupPacket 0xA1#8 2#8 2#16 0#16 64#16),
      .setup (setupPacket 0xA1#8 1#8 2#16 0#16 2#16)] ++ getstatus
    Meets (step c) State.Operates (State.start (appFilled c 0x55#8) fun _ => 0#8) es ∧
      (run (step c) (State.start (appFilled c 0x55#8) fun _ => 0#8) es).dfu.flash.mem startAddr ≠
        (run (step c) (State.start (appFilled c 0xAA#8) fun _ => 0#8) es).dfu.flash.mem
          startAddr := by
  decide +kernel

end Swindle
