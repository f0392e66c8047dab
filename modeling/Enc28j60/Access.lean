import Enc28j60.Banks
import Enc28j60.Steps

/-!
# Enc28j60.Access

One register access inside a triple.

`Keeps` follows the banks and nothing else; `All (Act A S)` says which
assertions a function leaves alone.  Here the two meet: an assertion that does
not see bank switching is carried to the register command itself, which is then
known to find BSEL where the history puts it.
-/

namespace Enc28j60

open Res

variable {α : Type} {G P Q : World → Prop} {t t' : Trail}

/-- The chip by itself does not touch the banks or the driver's record. -/
theorem bsel_of_event {c c' : Chip} (h : Chip.Event c c') : c'.bsel = c.bsel := by
  cases h with
  | receive f hf => rfl
  | txEnd err hrts =>
      have hmask : ∀ v : Byte, (v &&& 0xF7).setWidth 2 = (v.setWidth 2 : BitVec 2) := by decide
      exact hmask c.econ1
  | raise flag hflag => rfl
  | linkChange => rfl
  | phyStatus a v ha => rfl

theorem bankEnv_of_env {w w' : World} (h : Env w w') : BankEnv w w' := by
  cases h with
  | chip hc => exact ⟨rfl, bsel_of_event hc, rfl⟩
  | handler he hc => exact ⟨rfl, rfl, rfl⟩
  | lwip offered pbufs => exact ⟨rfl, rfl, rfl⟩
  | hal b => exact ⟨rfl, rfl, rfl⟩

theorem log_of_env {w w' : World} (h : Env w w') : w'.log = w.log := (bankEnv_of_env h).2.2

/-- No step of the environment touches the driver's record or the SPI port. -/
theorem dev_of_env {w w' : World} (h : Env w w') : w'.dev = w.dev ∧ w'.sel = w.sel := by
  cases h with
  | chip hc => exact ⟨rfl, rfl⟩
  | handler he hc => exact ⟨rfl, rfl⟩
  | lwip offered pbufs => exact ⟨rfl, rfl⟩
  | hal b => exact ⟨rfl, rfl⟩

/-- The chip by itself writes no banked register. -/
theorem regs_of_env {w w' : World} (h : Env w w') : w'.chip.regs = w.chip.regs := by
  cases h with
  | chip hc => cases hc <;> rfl
  | handler he hc => rfl
  | lwip offered pbufs => rfl
  | hal b => rfl

/-- What a function does to the banks, beside what it does to the rest. -/
theorem Keeps.with {R : World → World → Prop} (hR : ∀ w w', R w w' → BankEnv w w') {p : Fw α}
    {Q : α → World → Prop} (h : Keeps t p t') (hp : Triple R G P p Q) :
    Triple R G (fun w => P w ∧ At t w) p fun a w => Q a w ∧ At t' w :=
  Triple.and hR hp (h.triple False False.elim)

/-- An assertion that does not see bank switching. -/
def Blind (P : World → Prop) : Prop :=
  ∀ w w', Act (fun _ => False) (fun _ => False) w w' → P w → P w'

/-- Nor does bank switching. -/
theorem regs_of_blind {w w' : World} (h : Act (fun _ => False) (fun _ => False) w w') :
    w'.chip.regs = w.chip.regs := by
  cases h with
  | spi hc =>
      cases hc with
      | bank v hv => rfl
      | write a v ha => exact ha.elim
      | poll a =>
          show (w.chip.poll a).regs = w.chip.regs
          unfold Chip.poll
          repeat' split
          all_goals rfl
      | read n ha => exact ha.elim
      | fill vs ha => exact ha.elim
  | fetch off hc hs => exact hs.elim
  | idle => rfl
  | sel s => rfl
  | cache b => rfl
  | store off bs hs => exact hs.elim

section Register

variable {R : World → World → Prop} (hR : ∀ w w', R w w' → BankEnv w w')
  (hP : Stable R G P) (hblind : Blind P)
include hR hP hblind

theorem triple_select (r : Byte) :
    Triple R G (fun w => P w ∧ At t w) (selectBank r) fun _ w => P w ∧ At (t.enter r) w :=
  (Keeps.selectBank r).with hR (Triple.frame hP (all_selectBank r) hblind)

omit hblind in
/-- The assertion that `r`'s command is about to be issued. -/
theorem stable_selected (r : Byte) :
    Stable R G fun w => w.chip.bsel = (t.enter r).sel ∧ P w where
  env w w' hr hw := ⟨(hR w w' hr).2.1.trans hw.1, hP.env w w' hr hw.2⟩
  guard w hw := hP.guard w hw.2

/-- A write or bit field command finds the bank of the history selected. -/
theorem triple_sendReg {op r v : Byte} (hQ : Stable R G Q)
    (hbsel : ∀ chip : Chip, (chip.command (op ||| (0x1F &&& r)) [v]).bsel = chip.bsel)
    (h : ∀ w, P w → w.chip.bsel = (t.enter r).sel → Q (w.transact (some r)
      (op ||| (0x1F &&& r)) [v] [] (w.chip.command (op ||| (0x1F &&& r)) [v]))) :
    Triple R G (fun w => P w ∧ At t w) (sendReg op r v) fun _ w => Q w ∧ At (t.access r) w := by
  refine Triple.bind (triple_select hR hP hblind r) fun _ => ?_
  have hbank : Keeps (t.enter r) (spiSend (some r) (op ||| (0x1F &&& r)) [v]) (t.access r) :=
    Keeps.access_of fun _ _ _ _ hΦ => triple_spiSend_some hΦ hbsel
  refine Triple.conseq (hbank.with hR (Triple.modify (stable_selected hR hP r)
    (fun _ => hQ) fun w hw => h w hw.2 hw.1)) (fun w hw => ?_) fun _ _ hw => hw
  exact ⟨⟨hw.2.2.selected, hw.1⟩, hw.2⟩

end Register

/-! ## the banks over the main loop -/

/-- The banks are as some history says whose last bank satisfies `L`. -/
def Cached (L : Bank → Prop) (w : World) : Prop := ∃ t, At t w ∧ L t.last

/-- The cached bank stays one that satisfies `L`. -/
def KeepsBank (L : Bank → Prop) (p : Fw α) : Prop :=
  Triple BankEnv (Goal False) (Cached L) p fun _ => Cached L

theorem cached_stable {L : Bank → Prop} : Stable BankEnv (Goal False) (Cached L) where
  env w w' hr hw := by
    obtain ⟨t, ht, hL⟩ := hw
    exact ⟨t, (At.stable (Φ := False) False.elim).env w w' hr ht, hL⟩
  guard _ _ := False.elim

/-- A new record of the transactions does not concern the banks. -/
theorem cached_of_log {L : Bank → Prop} {w : World} (h : Cached L w) :
    Cached L { w with log := [] } := by
  obtain ⟨t, ht, hL⟩ := h
  refine ⟨{ t with routed := true }, ⟨ht.1, ht.2.cached, ht.2.selected, ?_⟩, hL⟩
  simp [Routed]

namespace KeepsBank

variable {L : Bank → Prop} {β : Type}

theorem of_keeps {p : Fw α} {f : Trail → Trail} (h : ∀ t, Keeps t p (f t))
    (hf : ∀ t : Trail, L t.last → L (f t).last) : KeepsBank L p := by
  intro w hw
  obtain ⟨t, ht, hL⟩ := hw
  exact ((h t).triple False False.elim w ht).mono fun _ w' hw' => ⟨f t, hw', hf t hL⟩

/-- Bank 0 only: the cached bank does not change. -/
theorem of_leave {p : Fw α} (h : ∀ t, Keeps t p t.leave) : KeepsBank L p :=
  of_keeps h fun _ hL => hL

theorem of_same {p : Fw α} (h : ∀ t, Keeps t p t) : KeepsBank L p :=
  of_keeps h fun _ hL => hL

theorem pure (a : α) : KeepsBank L (pure a : Fw α) := of_same fun _ => Keeps.pure a

theorem bind {p : Fw α} {f : α → Fw β} (hp : KeepsBank L p) (hf : ∀ a, KeepsBank L (f a)) :
    KeepsBank L (p >>= f) :=
  Triple.bind hp hf

theorem modify {f : World → World} (h : ∀ w, Neutral w (f w)) : KeepsBank L (Res.modify f) :=
  of_same fun _ => Keeps.modify h

theorem gets (f : World → α) : KeepsBank L (Res.gets f) :=
  of_same fun _ => Keeps.act fun _ => ⟨rfl, rfl, .rfl⟩

theorem goto (l : Label) : KeepsBank L (goto l) := modify fun _ => ⟨rfl, rfl, .rfl⟩

theorem serviced (err : Bool) : KeepsBank L (serviced err) := modify fun _ => ⟨rfl, rfl, .rfl⟩

theorem setTxBusy (b : Bool) : KeepsBank L (setTxBusy b) := modify fun _ => ⟨rfl, rfl, .rfl⟩

theorem clear_interrupt (flags : Byte) : KeepsBank L (clear_interrupt flags) := by
  refine of_keeps (fun _ => Keeps.clear_interrupt flags) fun t hL => ?_
  split
  · exact hL
  · exact hL

theorem global_int_Clear : KeepsBank L global_int_Clear :=
  of_leave fun _ => Keeps.BitFieldClear_bank0 rfl _ (by decide)

theorem global_Int_Set : KeepsBank L global_Int_Set :=
  of_leave fun _ => Keeps.BitFieldSet_bank0 rfl (by decide)

theorem copySegs (segs : List Seg) (offset : BitVec 16) : KeepsBank L (copySegs segs offset) := by
  induction segs generalizing offset with
  | nil => exact pure offset
  | cons q next ih =>
      refine bind ?_ fun _ => ih _
      exact modify fun _ => ⟨rfl, rfl, .rfl⟩

theorem translate (p : Pbuf) : KeepsBank L (translate p) := by
  refine (goto _).bind fun _ => ?_
  refine bind ?_ fun err => (goto _).bind fun _ => pure err
  unfold translateBody
  refine (gets _).bind fun busy => ?_
  split
  · refine (copySegs _ _).bind fun offset => ?_
    split
    · exact pure _
    · refine (of_leave fun _ => Keeps.etherTransmit _ _).bind fun _ => ?_
      exact (setTxBusy true).bind fun _ => pure _
  · exact pure _

theorem linkOutput : KeepsBank L linkOutput := by
  refine (gets _).bind fun frames => ?_
  induction frames with
  | nil => exact pure ()
  | cons p next ih => exact (translate p).bind fun _ => ih

theorem deliver : KeepsBank L deliver := by
  refine (gets _).bind fun ethBuffer => ?_
  cases ethBuffer with
  | none => exact pure ()
  | some lens =>
      refine (gets _).bind fun d => ?_
      refine bind ?_ fun _ => linkOutput
      exact modify fun _ => ⟨rfl, rfl, .rfl⟩

theorem servicePacket : KeepsBank L servicePacket := by
  refine (of_leave fun _ => Keeps.etherReceive).bind fun err => ?_
  refine (clear_interrupt _).bind fun _ => ?_
  refine (serviced _).bind fun _ => ?_
  refine (goto _).bind fun _ => ?_
  split
  · exact deliver
  · exact pure ()

/-- Only the PHY read of case 4 enters another bank. -/
theorem serviceBit {fuel cnt : Nat} (h : cnt = 4 → ∀ b, L b) : KeepsBank L (serviceBit fuel cnt) := by
  unfold Enc28j60.serviceBit
  split
  · exact clear_interrupt _
  · exact clear_interrupt _
  · exact pure ()
  · refine (goto _).bind fun _ => ?_
    refine (clear_interrupt _).bind fun _ => ?_
    exact (setTxBusy _).bind fun _ => goto _
  · refine (of_keeps (fun _ => Keeps.readPhyReg fuel _) fun _ _ => h rfl _).bind fun _ => ?_
    exact of_leave fun _ => Keeps.BitFieldClear_bank0 rfl _ (by decide)
  · exact clear_interrupt _
  · exact servicePacket
  · exact pure ()

theorem serviceFlag {fuel cnt : Nat} {u8Value : Byte} (h : cnt = 4 → ∀ b, L b) :
    KeepsBank L (serviceFlag fuel u8Value cnt) := by
  unfold Enc28j60.serviceFlag
  split
  · refine global_int_Clear.bind fun _ => ?_
    exact (serviceBit h).bind fun _ => global_Int_Set
  · exact pure ()

theorem serviceFlags (fuel : Nat) (u8Value : Byte) (flags : List Nat) :
    KeepsBank (fun _ => True) (serviceFlags fuel u8Value flags) :=
  triple_serviceFlags_of_forall cached_stable fun _ _ => serviceFlag fun _ _ => trivial

theorem snapshot : KeepsBank L snapshot := by
  refine (of_leave fun t => (Keeps.readEtherReg _).congr (t.access_bank0 rfl)).bind fun v => ?_
  refine bind ?_ fun _ => pure v
  exact Triple.modify cached_stable (fun _ => cached_stable) fun _ hw => cached_of_log hw

/-- What a function does to the banks of the main loop, beside the rest. -/
theorem and {R : World → World → Prop} (hR : ∀ w w', R w w' → BankEnv w w') {p : Fw α}
    {Q : α → World → Prop} (hk : KeepsBank L p) (hp : Triple R G P p Q) :
    Triple R G (fun w => P w ∧ Cached L w) p fun a w => Q a w ∧ Cached L w :=
  Triple.and hR hp hk

end KeepsBank

/-! ## registers of bank 0 -/

theorem Trail.enter_sel_bank0 (t : Trail) {r : Byte} (h : convertRegValToBank r = .bank_0) :
    (t.enter r).sel = 0 := by
  unfold enter sel access
  simp [h]

theorem Chip.writeReg_of_bsel {c : Chip} {a : BitVec 5} (v : Byte) (ha : a.ult 0x1B = true)
    (h : c.bsel = 0) : c.writeReg a v = c.writeBanked 0 a v := by
  have hne : a ≠ 0x1B ∧ a ≠ 0x1C ∧ a ≠ 0x1D ∧ a ≠ 0x1E ∧ a ≠ 0x1F := by
    revert a
    decide
  unfold writeReg
  rw [if_neg hne.1, if_neg hne.2.1, if_neg hne.2.2.1, if_neg hne.2.2.2.1, if_neg hne.2.2.2.2, h]

/-- In the main loop, a write to a register of bank 0 arrives. -/
theorem triple_writeReg_bank0 {R : World → World → Prop} (hR : ∀ w w', R w w' → BankEnv w w')
    {L : Bank → Prop} (hP : Stable R G P) (hblind : Blind P) (hQ : Stable R G Q) {r v : Byte}
    (hr : convertRegValToBank r = .bank_0 ∧ (regAddr r).ult 0x1B = true)
    (h : ∀ w, P w → Q (w.transact (some r) (opcode.u8writeControlRegister ||| (0x1F &&& r)) [v] []
      (w.chip.writeBanked 0 (regAddr r) v))) :
    Triple R G (fun w => P w ∧ Cached L w) (writeReg r v) fun _ w => Q w ∧ Cached L w := by
  have hne : regAddr r ≠ 0x1F := fun heq => by
    have := hr.2
    rw [heq] at this
    exact absurd this (by decide)
  intro w hw
  obtain ⟨hPw, t, ht, hL⟩ := hw
  have hsend : Triple R G (fun w => P w ∧ At t w) (writeReg r v)
      fun _ w => Q w ∧ At (t.access r) w := by
    refine triple_sendReg hR hP hblind hQ (fun chip => ?_) fun w hw hsel => ?_
    · rw [Chip.command_write]
      exact Chip.bsel_writeReg v hne
    · rw [t.enter_sel_bank0 hr.1] at hsel
      rw [Chip.command_write, Chip.writeReg_of_bsel v hr.2 hsel]
      exact h w hw
  refine (hsend w ⟨hPw, ht⟩).mono fun _ w' hw' => ⟨hw'.1, t.access r, hw'.2, ?_⟩
  rw [t.access_bank0 hr.1]
  exact hL

end Enc28j60
