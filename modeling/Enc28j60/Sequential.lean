import Enc28j60.Banks
import Enc28j60.Image

/-!
# Enc28j60.Sequential

The driver's functions when nothing happens beside them.

`Seq t d c p a t' d' c'` says that `p`, run with the banks as history `t` puts
them, the driver record `d` and the chip `c`, returns `a` and leaves history
`t'`, record `d'` and chip `c'`.  The banks are kept in the histories alone, so
`c'` is what the register commands make of `c`:

* a command to a banked register becomes `Chip.writeBanked` or a value read in
  the bank the history selects (`seq_writeReg`, `seq_receiveReg`);
* a command to a common register acts on that register;
* the poll loops let the chip's wait times run out (`seq_waitMii`, `seq_waitClock`).
-/

namespace Enc28j60

open Res

/-! ## the selected bank, apart from the rest of the chip -/

namespace Chip

/-- The chip with bank `s` selected. -/
def select (c : Chip) (s : BitVec 2) : Chip :=
  { c with econ1 := (c.econ1 &&& 0xFC) ||| s.setWidth 8 }

@[simp] theorem bsel_select (c : Chip) (s : BitVec 2) : (c.select s).bsel = s := by
  unfold select bsel
  have h : ∀ (v : Byte) (s : BitVec 2), ((v &&& 0xFC) ||| s.setWidth 8).setWidth 2 = s := by decide
  exact h c.econ1 s

theorem select_bsel (c : Chip) : c.select c.bsel = c := by
  unfold select bsel
  have h : ∀ v : Byte, (v &&& 0xFC) ||| (v.setWidth 2 : BitVec 2).setWidth 8 = v := by decide
  rw [h c.econ1]

@[simp] theorem select_select (c : Chip) (s s' : BitVec 2) :
    (c.select s).select s' = c.select s' := by
  unfold select
  have h : ∀ (v : Byte) (s : BitVec 2), ((v &&& 0xFC) ||| s.setWidth 8) &&& 0xFC = v &&& 0xFC := by
    decide
  simp only [h c.econ1 s]

@[simp] theorem select_regs (c : Chip) (s : BitVec 2) : (c.select s).regs = c.regs := rfl

@[simp] theorem select_phy (c : Chip) (s : BitVec 2) : (c.select s).phy = c.phy := rfl

theorem setReg_select (c : Chip) (s b : BitVec 2) (a : BitVec 5) (v : Byte) :
    (c.select s).setReg b a v = (c.setReg b a v).select s := rfl

theorem miiRead_select (c : Chip) (s : BitVec 2) : (c.select s).miiRead = c.miiRead.select s := by
  unfold miiRead
  split
  case isTrue h =>
    rw [if_pos (show c.miregadr = PHIR from h)]
    rfl
  case isFalse h =>
    rw [if_neg (show ¬ c.miregadr = PHIR from h)]
    rfl

/-- A banked write does not see which bank is selected. -/
theorem writeBanked_select (c : Chip) (s b : BitVec 2) (a : BitVec 5) (v : Byte) :
    (c.select s).writeBanked b a v = (c.writeBanked b a v).select s := by
  unfold writeBanked
  simp only [setReg_select, miiRead_select, apply_ite (fun c' : Chip => c'.select s)]
  rfl

theorem ult_ne {a : BitVec 5} (h : a.ult 0x1B = true) :
    a ≠ 0x1B ∧ a ≠ 0x1C ∧ a ≠ 0x1D ∧ a ≠ 0x1E ∧ a ≠ 0x1F := by
  revert a
  decide

theorem writeReg_select (c : Chip) (s : BitVec 2) {a : BitVec 5} (v : Byte)
    (h : a.ult 0x1B = true) : (c.select s).writeReg a v = (c.writeBanked s a v).select s := by
  obtain ⟨h1, h2, h3, h4, h5⟩ := ult_ne h
  unfold writeReg
  rw [if_neg h1, if_neg h2, if_neg h3, if_neg h4, if_neg h5, bsel_select, writeBanked_select]

/-- What a read returns from a register of bank `b`. -/
def readBanked (c : Chip) (b : BitVec 2) (a : BitVec 5) : Byte := (c.select b).readReg a

end Chip

/-! ## sequential runs -/

/-- Everything but the record, the chip and the SPI port is as before. -/
structure Beside (w w' : World) : Prop where
  halOk : w'.halOk = w.halOk
  sel : w'.sel = w.sel
  enc28j60intCounter : w'.enc28j60intCounter = w.enc28j60intCounter
  bTxBusy : w'.bTxBusy = w.bTxBusy
  at_ : w'.at_ = w.at_
  offered : w'.offered = w.offered
  pbufs : w'.pbufs = w.pbufs
  delivered : w'.delivered = w.delivered
  served : w'.served = w.served

theorem Beside.refl (w : World) : Beside w w := ⟨rfl, rfl, rfl, rfl, rfl, rfl, rfl, rfl, rfl⟩

theorem Beside.trans {w w' w'' : World} (h : Beside w w') (h' : Beside w' w'') : Beside w w'' where
  halOk := h'.halOk.trans h.halOk
  sel := h'.sel.trans h.sel
  enc28j60intCounter := h'.enc28j60intCounter.trans h.enc28j60intCounter
  bTxBusy := h'.bTxBusy.trans h.bTxBusy
  at_ := h'.at_.trans h.at_
  offered := h'.offered.trans h.offered
  pbufs := h'.pbufs.trans h.pbufs
  delivered := h'.delivered.trans h.delivered
  served := h'.served.trans h.served

/-- The banks are as history `t` says; otherwise record `d` and chip `c`. -/
structure Agrees (t : Trail) (d : Dev) (c : Chip) (w : World) : Prop where
  dev : w.dev = d.setBank t.last
  chip : w.chip = c.select t.sel

/-- `p` takes history `t`, record `d` and chip `c` to `t'`, `d'` and `c'`, and returns `a`. -/
def Seq {α : Type} (t : Trail) (d : Dev) (c : Chip) (p : Fw α) (a : α) (t' : Trail) (d' : Dev)
    (c' : Chip) : Prop :=
  ∀ w, Agrees t d c w → ∃ w', run p w = some (a, w') ∧ Agrees t' d' c' w' ∧ Beside w w'

/-- A world whose banks are as `t` says. -/
theorem agrees_self {t : Trail} {w : World} (hb : w.dev.bnBank = t.last) (hs : w.chip.bsel = t.sel) :
    Agrees t w.dev w.chip w where
  dev := by rw [← hb]; rfl
  chip := by rw [← hs, Chip.select_bsel]

section Rules

variable {α β : Type} {t t' t'' : Trail} {d d' d'' : Dev} {c c' c'' y : Chip}

theorem Seq.pure (a : α) : Seq t d c (pure a : Fw α) a t d c :=
  fun w hw => ⟨w, rfl, hw, .refl w⟩

theorem Seq.bind {p : Fw α} {f : α → Fw β} {a : α} {b : β} (hp : Seq t d c p a t' d' c')
    (hf : Seq t' d' c' (f a) b t'' d'' c'') : Seq t d c (p >>= f) b t'' d'' c'' := by
  intro w hw
  obtain ⟨w', hrun, hw', hb⟩ := hp w hw
  obtain ⟨w'', hrun', hw'', hb'⟩ := hf w' hw'
  refine ⟨w'', ?_, hw'', hb.trans hb'⟩
  rw [run_bind, hrun]
  exact hrun'

theorem Seq.congr {p : Fw α} {a b : α} {u : Trail} {e : Dev} {x : Chip} (h : Seq t d c p a u e x)
    (ha : a = b) (hu : u.last = t'.last ∧ u.sel = t'.sel) (he : e = d') (hx : x = c') :
    Seq t d c p b t' d' c' := by
  subst ha he hx
  intro w hw
  obtain ⟨w', hrun, hw', hb⟩ := h w hw
  refine ⟨w', hrun, ⟨?_, ?_⟩, hb⟩
  · rw [← hu.1]
    exact hw'.dev
  · rw [← hu.2]
    exact hw'.chip

theorem seq_getDev : Seq t d c getDev (d.setBank t.last) t d c := by
  intro w hw
  refine ⟨w, ?_, hw, .refl w⟩
  rw [← hw.dev]
  rfl

/-- A change of the record that does not concern the banks. -/
theorem seq_modifyDev {f : Dev → Dev} (h : ∀ b, f (d.setBank b) = (f d).setBank b) :
    Seq t d c (modifyDev f) () t (f d) c := by
  intro w hw
  refine ⟨_, rfl, ⟨?_, hw.chip⟩, ⟨rfl, rfl, rfl, rfl, rfl, rfl, rfl, rfl, rfl⟩⟩
  show f w.dev = _
  rw [hw.dev, h]

theorem seq_delayMs (n : Nat) : Seq t d c (delayMs n) () t d c :=
  fun w hw => ⟨w, rfl, hw, .refl w⟩

theorem seq_spiSend {reg : Option Byte} {cmd : Byte} {out : List Byte} {s : BitVec 2}
    (h : (c.select t.sel).command cmd out = c'.select s) (hs : t'.sel = s)
    (hl : t'.last = t.last) : Seq t d c (spiSend reg cmd out) () t' d c' := by
  intro w hw
  refine ⟨_, rfl, ⟨?_, ?_⟩, ⟨rfl, rfl, rfl, rfl, rfl, rfl, rfl, rfl, rfl⟩⟩
  · rw [hl]
    exact hw.dev
  · rw [hs, ← h, ← hw.chip]
    rfl

/-! ## one access -/

theorem command_clear_bsel (c : Chip) (b : Bank) :
    c.command (opcode.u8BitFieldClear ||| (0x1F &&& b.econ1)) [0x03] = c.select 0 := by
  have h : ∀ v : Byte, v &&& ~~~0x03 = (v &&& 0xFC) ||| (0 : BitVec 2).setWidth 8 := by decide
  rw [Chip.command_clear, regAddr_econ1]
  unfold Chip.select
  rw [← h c.econ1]
  rfl

theorem command_set_bsel (c : Chip) (b : Bank) :
    (c.select 0).command (opcode.u8BitFieldSet ||| (0x1F &&& bank0.ECON1)) [convertBankToBits b]
      = c.select b.bits := by
  have hr : regAddr bank0.ECON1 = 0x1F := by decide
  have h : ∀ v : Byte, ((v &&& 0xFC) ||| (0 : BitVec 2).setWidth 8) ||| convertBankToBits b =
      (v &&& 0xFC) ||| b.bits.setWidth 8 := by
    cases b <;> decide
  rw [Chip.command_set, hr]
  unfold Chip.select
  rw [← h c.econ1]
  rfl

/-- `enc28j60_bankChange` to bank 0. -/
theorem run_bankChange_zero {w : World} (h : w.dev.bnBank ≠ .undefBank) :
    run (bankChange .bank_0) w = some ((), w.transact none
      (opcode.u8BitFieldClear ||| (0x1F &&& w.dev.bnBank.econ1)) [0x03] []
      (w.chip.select 0)) := by
  have hbits : ¬ (convertBankToBits .bank_0 ≠ 0 ∧ convertBankToBits .bank_0 ≤ 3) := by decide
  unfold bankChange
  simp only [getDev, run_bind, run_gets, Option.bind_some, if_neg h, if_neg hbits, spiSend,
    run_modify, command_clear_bsel, run_pure]

/-- `enc28j60_bankChange` to another bank. -/
theorem run_bankChange {w : World} (h : w.dev.bnBank ≠ .undefBank) {b : Bank}
    (h0 : b ≠ .bank_0) (hb : b ≠ .undefBank) :
    ∃ w', run (bankChange b) w = some ((), w') ∧ w'.dev = w.dev.setBank b ∧
      w'.chip = w.chip.select b.bits ∧ Beside w w' := by
  have hbits : convertBankToBits b ≠ 0 ∧ convertBankToBits b ≤ 3 := by
    cases b <;> simp_all <;> decide
  have hset : (w.chip.select 0).command (opcode.u8BitFieldSet ||| (0x1F &&& bank0.ECON1))
      [convertBankToBits b] = w.chip.select b.bits := command_set_bsel w.chip b
  have hrun : run (bankChange b) w = some ((),
      { (w.transact none (opcode.u8BitFieldClear ||| (0x1F &&& w.dev.bnBank.econ1)) [0x03] []
          (w.chip.select 0)).transact none
          (opcode.u8BitFieldSet ||| (0x1F &&& bank0.ECON1)) [convertBankToBits b] []
          ((w.chip.select 0).command (opcode.u8BitFieldSet ||| (0x1F &&& bank0.ECON1))
            [convertBankToBits b]) with dev := w.dev.setBank b }) := by
    unfold bankChange
    simp only [getDev, run_bind, run_gets, Option.bind_some, if_neg h, if_pos hbits, spiSend,
      run_modify, command_clear_bsel, modifyDev]
    rfl
  exact ⟨_, hrun, rfl, hset, ⟨rfl, rfl, rfl, rfl, rfl, rfl, rfl, rfl, rfl⟩⟩

/-- Bank switching moves the history and nothing else. -/
theorem seq_selectBank (ht : t.last ≠ .undefBank) (r : Byte) :
    Seq t d c (selectBank r) () (t.access r) d c := by
  have hsel : (t.access r).sel = (t.enter r).sel := rfl
  have hlast : (t.access r).last = (t.enter r).last := rfl
  intro w hw
  have hbank : w.dev.bnBank = t.last := by rw [hw.dev]; rfl
  have hne : w.dev.bnBank ≠ .undefBank := by rwa [hbank]
  by_cases heq : convertRegValToBank r = t.last
  · refine ⟨w, ?_, ⟨?_, ?_⟩, .refl w⟩
    · simp [selectBank, getDev, heq, hbank]
    · rw [hlast, Trail.enter_last_of_eq heq]
      exact hw.dev
    · rw [hsel, Trail.enter_sel_of_eq heq]
      exact hw.chip
  have hrun : run (selectBank r) w = run (bankChange (convertRegValToBank r)) w := by
    simp [selectBank, getDev, heq, hbank]
  by_cases h0 : convertRegValToBank r = .bank_0
  · rw [h0] at hrun
    refine ⟨_, hrun.trans (run_bankChange_zero hne), ⟨?_, ?_⟩,
      ⟨rfl, rfl, rfl, rfl, rfl, rfl, rfl, rfl, rfl⟩⟩
    · have hl : (t.access r).last = t.last := by simp [Trail.access, h0]
      rw [hl]
      exact hw.dev
    · rw [hsel, Trail.enter_sel_of_ne heq, h0]
      show w.chip.select 0 = _
      rw [hw.chip, Chip.select_select]
      rfl
  · obtain ⟨w', hrun', hdev, hchip, hb⟩ :=
      run_bankChange hne h0 (convertRegValToBank_ne_undef r)
    refine ⟨w', hrun.trans hrun', ⟨?_, ?_⟩, hb⟩
    · have hl : (t.access r).last = convertRegValToBank r := by simp [Trail.access, h0]
      rw [hl, hdev, hw.dev, Dev.setBank_setBank]
    · rw [hsel, Trail.enter_sel_of_ne heq, hchip, hw.chip, Chip.select_select]

/-- The history an access leaves is one of a known bank. -/
theorem access_ne_undef (ht : t.last ≠ .undefBank) (r : Byte) :
    (t.access r).last ≠ .undefBank := by
  unfold Trail.access
  dsimp only
  split
  · exact ht
  · exact convertRegValToBank_ne_undef r

/-- A write to a banked register. -/
theorem seq_writeReg (ht : t.last ≠ .undefBank) {r : Byte} (hr : (regAddr r).ult 0x1B = true)
    (v : Byte) : Seq t d c (writeReg r v) () (t.access r) d
      (c.writeBanked (t.access r).sel (regAddr r) v) := by
  refine Seq.bind (seq_selectBank ht r) (seq_spiSend (s := (t.access r).sel) ?_ rfl rfl)
  rw [Chip.command_write, Chip.writeReg_select _ _ _ hr]

/-- A bit field command on a common register other than ECON1's BSEL. -/
theorem seq_BitFieldSet (ht : t.last ≠ .undefBank) {r v : Byte}
    (h : ∀ s, (c.select s).bitFieldSet (regAddr r) v = y.select s) :
    Seq t d c (BitFieldSet r v) () (t.access r) d y := by
  refine Seq.bind (seq_selectBank ht r) (seq_spiSend (s := (t.access r).sel) ?_ rfl rfl)
  rw [Chip.command_set]
  exact h _

theorem seq_BitFieldClear (ht : t.last ≠ .undefBank) {r v : Byte}
    (h : ∀ s, (c.select s).bitFieldClear (regAddr r) v = y.select s) :
    Seq t d c (BitFieldClear r v) () (t.access r) d y := by
  refine Seq.bind (seq_selectBank ht r) (seq_spiSend (s := (t.access r).sel) ?_ rfl rfl)
  rw [Chip.command_clear]
  exact h _

/-- A write to a common register. -/
theorem seq_writeCommon (ht : t.last ≠ .undefBank) {r v : Byte}
    (h : ∀ s, (c.select s).writeReg (regAddr r) v = y.select s) :
    Seq t d c (writeReg r v) () (t.access r) d y := by
  refine Seq.bind (seq_selectBank ht r) (seq_spiSend (s := (t.access r).sel) ?_ rfl rfl)
  rw [Chip.command_write]
  exact h _

/-- A register read that leaves the chip as it is. -/
theorem seq_receiveReg (ht : t.last ≠ .undefBank) {n : Nat} {r v : Byte}
    (h : (c.select (t.access r).sel).readControl
      (opcode.u8readControlRegister ||| (0x1F &&& r)) n = (v, y.select (t.access r).sel)) :
    Seq t d c (receiveReg n r) v (t.access r) d y := by
  refine Seq.bind (seq_selectBank ht r) ?_
  intro w hw
  refine ⟨w.transact (some r) (opcode.u8readControlRegister ||| (0x1F &&& r)) [] [v]
    (y.select (t.access r).sel), ?_, ⟨hw.dev, rfl⟩,
    ⟨rfl, rfl, rfl, rfl, rfl, rfl, rfl, rfl, rfl⟩⟩
  unfold spiReadControl
  rw [run_act, hw.chip, h]

/-! ## histories inside and outside a bank -/

end Rules

namespace Trail

/-- Bank `b` is cached and selected. -/
def inside (b : Bank) : Trail := ⟨b, false, true⟩

/-- Bank `b` is cached, but bank 0 is selected. -/
def outside (b : Bank) : Trail := ⟨b, true, true⟩

/-- Entering another bank than the cached one. -/
theorem access_of_ne {t : Trail} {r : Byte} {b : Bank} (hb : convertRegValToBank r = b)
    (h0 : b ≠ .bank_0) (h : b ≠ t.last) :
    (t.access r).last = b ∧ (t.access r).sel = b.bits := by
  subst hb
  simp [access, sel, h0, h]

/-- The cached bank is not selected again. -/
theorem access_of_eq {t : Trail} {r : Byte} (h : convertRegValToBank r = t.last) :
    (t.access r).last = t.last ∧ (t.access r).sel = t.sel :=
  ⟨enter_last_of_eq h, enter_sel_of_eq h⟩

/-- From inside a bank, every bank but 0 is entered. -/
theorem access_inside {b k : Bank} {r : Byte} (hb : convertRegValToBank r = k)
    (h0 : k ≠ .bank_0) :
    ((inside b).access r).last = k ∧ ((inside b).access r).sel = k.bits := by
  by_cases h : k = b
  · subst h
    exact access_of_eq hb
  · exact access_of_ne hb h0 h

theorem access_zero (t : Trail) {r : Byte} (h : convertRegValToBank r = .bank_0) :
    (t.access r).last = t.last ∧ (t.access r).sel = 0 := by
  rw [access_bank0 t h]
  exact ⟨rfl, rfl⟩

end Trail

section Inside

variable {b k : Bank} {d : Dev} {c : Chip} {r : Byte}

/-- A write from inside a bank arrives in the register's own bank. -/
theorem seq_writeReg_inside (h : b ≠ .undefBank) (hb : convertRegValToBank r = k)
    (h0 : k ≠ .bank_0) (hr : (regAddr r).ult 0x1B = true) (v : Byte) :
    Seq (.inside b) d c (writeReg r v) () (.inside k) d
      (c.writeBanked k.bits (regAddr r) v) := by
  obtain ⟨hl, hs⟩ := Trail.access_inside (b := b) hb h0
  refine (seq_writeReg h hr v).congr rfl ⟨hl, hs⟩ rfl ?_
  rw [hs]

end Inside

/-! ## bank 0 -/

section Zero

variable {t : Trail} {d : Dev} {c : Chip} (ht : t.last ≠ .undefBank)
include ht

/-- A write to a register of bank 0 arrives, whatever bank was in use. -/
theorem seq_writeReg_zero {r : Byte}
    (hb : convertRegValToBank r = .bank_0) (hr : (regAddr r).ult 0x1B = true) (v : Byte) :
    Seq t d c (writeReg r v) () (.outside t.last) d (c.writeBanked 0 (regAddr r) v) := by
  obtain ⟨hl, hs⟩ := t.access_zero hb
  refine (seq_writeReg ht hr v).congr rfl ⟨hl, hs⟩ rfl ?_
  rw [hs]

/-- So does a 16-bit value. -/
theorem seq_writeReg16_zero {rl rh : Byte}
    (hb : convertRegValToBank rl = .bank_0 ∧ convertRegValToBank rh = .bank_0)
    (hr : (regAddr rl).ult 0x1B = true ∧ (regAddr rh).ult 0x1B = true) (v : BitVec 16) :
    Seq t d c (writeReg16 rl rh v) () (.outside t.last) d
      ((c.writeBanked 0 (regAddr rl) (lo v)).writeBanked 0 (regAddr rh) (hi v)) :=
  Seq.bind (seq_writeReg_zero ht hb.1 hr.1 _)
    (seq_writeReg_zero (t := .outside t.last) ht hb.2 hr.2 _)

end Zero

/-- Setting bits of ECON1 other than BSEL. -/
theorem setBit_econ1 (x : Chip) {v : Byte} (hv : v &&& 0x03 = 0) (s : BitVec 2) :
    (x.select s).bitFieldSet (regAddr bank0.ECON1) v =
      { x with econ1 := x.econ1 ||| v }.select s := by
  have hmask : ∀ v : Byte, v &&& 0x03 = 0 → v &&& 0xFC = v := by decide
  have hr : regAddr bank0.ECON1 = 0x1F := by decide
  have hor : ((x.econ1 &&& 0xFC) ||| s.setWidth 8) ||| v =
      ((x.econ1 ||| v) &&& 0xFC) ||| s.setWidth 8 := by
    rw [BitVec.and_or_distrib_right, hmask v hv, BitVec.or_assoc, BitVec.or_assoc,
      BitVec.or_comm v]
  rw [hr]
  show { x.select s with econ1 := ((x.econ1 &&& 0xFC) ||| s.setWidth 8) ||| v } = _
  rw [hor]
  rfl

end Enc28j60
