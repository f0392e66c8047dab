import Enc28j60.Access
import Enc28j60.Calls

/-!
# Enc28j60.Operated

The states the driver's functions lead to.

* `Operated` — power-on, `enc28j60_strtDr`, then any calls of the driver and of
  `enc28j60_translate` in any order, while the chip, the EXTI handler, lwIP and
  the SPI port do what they like between any two actions.
* `operated_inv` — the banks are as some history says, the configuration in
  `dev` is the initial one, and ECON2.AUTOINC is set.
-/

namespace Enc28j60

open Res

/-- The bytes of a chain, in its order. -/
def Pbuf.bytes (p : Pbuf) : List Byte := (p.segs.map Seg.payload).flatten

/-- A state the driver may be in after `enc28j60_strtDr`. -/
inductive Operated : World → Prop
  | start {n : Nat} {w₀ w : World} (h₀ : PowerOn w₀) (hd : w₀.dev = dev)
      (h : Steps Env (strtDr n, w₀) (pure (), w)) : Operated w
  | call {n : Nat} {w w' : World} (c : Call) (hw : Operated w)
      (h : Steps Env (c.exec n, w) (pure (), w')) : Operated w'
  /-- `enc28j60_translate`, for a chain that fits `txPkt.data`. -/
  | translate {w w' : World} {err : Err} (p : Pbuf) (hp : p.bytes.length ≤ 1500) (hw : Operated w)
      (h : Steps Env (translate p, w) (pure err, w')) : Operated w'
  /-- `bTxBusy = false` in case 3 of the pass. -/
  | release {w : World} (hw : Operated w) : Operated { w with bTxBusy := false }

/-! ## what every operation keeps -/

/-- The two records agree but for the cached bank and the packet image. -/
structure Dev.SameSetup (d d' : Dev) : Prop where
  rxBufStartAddr : d'.rxBufStartAddr = d.rxBufStartAddr
  rxBufEndAddr : d'.rxBufEndAddr = d.rxBufEndAddr
  txBufStartAddr : d'.txBufStartAddr = d.txBufStartAddr
  txBufEndAddr : d'.txBufEndAddr = d.txBufEndAddr
  MxmPkSize : d'.MxmPkSize = d.MxmPkSize
  mac : d'.mac = d.mac

theorem Dev.SameSetup.refl (d : Dev) : d.SameSetup d := ⟨rfl, rfl, rfl, rfl, rfl, rfl⟩

theorem Dev.SameSetup.trans {d d' d'' : Dev} (h : d.SameSetup d') (h' : d'.SameSetup d'') :
    d.SameSetup d'' where
  rxBufStartAddr := h'.rxBufStartAddr.trans h.rxBufStartAddr
  rxBufEndAddr := h'.rxBufEndAddr.trans h.rxBufEndAddr
  txBufStartAddr := h'.txBufStartAddr.trans h.txBufStartAddr
  txBufEndAddr := h'.txBufEndAddr.trans h.txBufEndAddr
  MxmPkSize := h'.MxmPkSize.trans h.MxmPkSize
  mac := h'.mac.trans h.mac

variable {A : BitVec 5 → Prop} {S : Nat → Prop} {w w' : World}

/-- No action writes the configuration. -/
theorem sameSetup_of_act (h : Act A S w w') : w.dev.SameSetup w'.dev := by
  cases h with
  | idle => exact .refl _
  | sel s => exact .refl _
  | cache b => exact ⟨rfl, rfl, rfl, rfl, rfl, rfl⟩
  | store off bs hs => exact ⟨rfl, rfl, rfl, rfl, rfl, rfl⟩
  | spi hc => exact .refl _
  | fetch off hc hs => exact ⟨rfl, rfl, rfl, rfl, rfl, rfl⟩

namespace Chip

theorem econ2_miiRead (c : Chip) : c.miiRead.econ2 = c.econ2 := by
  unfold miiRead
  split <;> rfl

theorem econ2_writeBanked (c : Chip) (b : BitVec 2) (a : BitVec 5) (v : Byte) :
    (c.writeBanked b a v).econ2 = c.econ2 :=
  writeBanked_rule (P := fun c' => c'.econ2 = c.econ2) (fun _ _ _ => rfl)
    (fun _ _ c' h => (econ2_miiRead c').trans h) fun _ _ h => h

theorem econ2_writeReg {c : Chip} {a : BitVec 5} (v : Byte) (h : a ≠ 0x1E) :
    (c.writeReg a v).econ2 = c.econ2 := by
  unfold writeReg
  rw [if_neg h]
  split
  · rfl
  split
  · rfl
  split
  · rfl
  split
  · rfl
  exact econ2_writeBanked c _ a v

theorem econ2_readBuffer (n : Nat) (c : Chip) : (readBuffer n c).2.econ2 = c.econ2 := by
  obtain ⟨_, h⟩ := readBuffer_eq n c
  rw [h]

theorem econ2_writeBuffer (vs : List Byte) (c : Chip) : (writeBuffer vs c).econ2 = c.econ2 := by
  obtain ⟨_, _, h⟩ := writeBuffer_eq vs c
  rw [h]

/-- Setting bits of ECON2 does not clear AUTOINC. -/
theorem autoinc_set (c : Chip) (v : Byte) (h : c.autoinc = true) :
    (c.bitFieldSet 0x1E v).autoinc = true := by
  have hbit : ∀ x v : Byte, x.getLsbD 7 = true → ((x ||| v) &&& 0xBF).getLsbD 7 = true := by
    intro x v hx
    simp [hx]
  have hecon2 : (c.bitFieldSet 0x1E v).econ2 = (c.econ2 ||| v) &&& 0xBF := by
    show (if (c.econ2 ||| v).getLsbD 6 then Chip.pktDec { c with econ2 := (c.econ2 ||| v) &&& 0xBF }
      else { c with econ2 := (c.econ2 ||| v) &&& 0xBF }).econ2 = _
    split <;> rfl
  unfold autoinc
  rw [hecon2]
  exact hbit c.econ2 v h

end Chip

/-- A reset sets it. -/
theorem autoinc_softReset (c : Chip) : (c.command opcode.u8SoftReset []).autoinc = true := by
  have hbit : (0x80 : Byte).getLsbD 7 = true := by decide
  rw [Chip.command_softReset]
  exact hbit

/-- A step that keeps the configuration, and AUTOINC once it is set. -/
def Kept (w w' : World) : Prop :=
  w.dev.SameSetup w'.dev ∧ (w.chip.autoinc = true → w'.chip.autoinc = true)

theorem econ2_of_chipStep {c c' : Chip} (h : ChipStep (· ≠ 0x1E) c c') : c'.econ2 = c.econ2 := by
  cases h with
  | bank v hv => rfl
  | write a v ha => exact Chip.econ2_writeReg v ha
  | poll a =>
      unfold Chip.poll
      repeat' split
      all_goals rfl
  | read n ha => exact Chip.econ2_readBuffer n c
  | fill vs ha => exact Chip.econ2_writeBuffer vs c

/-- An action that does not write ECON2. -/
theorem kept_of_act (h : Act (· ≠ 0x1E) S w w') : Kept w w' := by
  refine ⟨sameSetup_of_act h, fun hinc => ?_⟩
  have hecon2 : w'.chip.econ2 = w.chip.econ2 := by
    cases h with
    | spi hc => exact econ2_of_chipStep hc
    | fetch off hc hs => exact econ2_of_chipStep hc
    | idle => rfl
    | sel s => rfl
    | cache b => rfl
    | store off bs hs => rfl
  unfold Chip.autoinc
  rw [hecon2]
  exact hinc

theorem kept_of_env (h : Env w w') : Kept w w' := by
  refine ⟨?_, fun hinc => ?_⟩
  · rw [(dev_of_env h).1]
    exact .refl _
  · cases h with
    | chip hc => cases hc <;> exact hinc
    | handler he hc => exact hinc
    | lwip offered pbufs => exact hinc
    | hal b => exact hinc

/-- Configured as `dev` is, with AUTOINC set. -/
def Prepared (w : World) : Prop := dev.SameSetup w.dev ∧ w.chip.autoinc = true

theorem Kept.prepared (h : Kept w w') (hw : Prepared w) : Prepared w' :=
  ⟨hw.1.trans h.1, h.2 hw.2⟩

theorem stable_of_kept {P : World → Prop} (h : ∀ w w', Kept w w' → P w → P w') :
    Stable Env (fun _ => True) P :=
  ⟨fun _ _ henv => h _ _ (kept_of_env henv), fun _ _ => trivial⟩

theorem prepared_stable : Stable Env (fun _ => True) Prepared :=
  stable_of_kept fun _ _ h => h.prepared

/-! ## the operations -/

theorem all_kept {α : Type} {p : Fw α} (h : All (Act (· ≠ 0x1E) (fun _ => True)) p) : All Kept p :=
  h.mono fun _ _ => kept_of_act

/-- PKTDEC is the only bit that is set beside AUTOINC. -/
theorem all_kept_pktDec : All Kept (clear_interrupt PKTIF) := by
  refine All.bind (all_kept (all_selectBank _)) fun _ => ?_
  refine (all_modify _).mpr fun w => ⟨.refl _, fun hinc => ?_⟩
  show (w.chip.command (opcode.u8BitFieldSet ||| (0x1F &&& bank0.ECON2)) [1 <<< 6]).autoinc = true
  rw [Chip.command_set]
  exact Chip.autoinc_set w.chip _ hinc

/-- Every call but `enc28j60_strtDr` and the resets. -/
theorem all_kept_exec (n : Nat) {c : Call} (hc : c ≠ .strtDr) : All Kept (c.exec n) := by
  have hphy : ∀ addr, All Kept (readPhyReg n addr) := fun addr =>
    all_kept (all_readPhyReg (by decide) n addr)
  have hbit : ∀ addr bit, All Kept (phyStatusBit n addr bit) := fun addr bit =>
    (hphy addr).bind fun _ => all_pure _
  have hdiscard : ∀ {α : Type} {p : Fw α}, All Kept p → All Kept (discard p) := fun hp =>
    hp.bind fun _ => all_pure ()
  cases c with
  | strtDr => exact absurd rfl hc
  | sftRst => exact (all_modify _).mpr fun w => ⟨.refl _, fun _ => autoinc_softReset w.chip⟩
  | readEtherReg r => exact hdiscard (all_kept (all_receiveReg 1 r))
  | readPhyReg a => exact hdiscard (hphy a)
  | getPhyRevNumber => exact hdiscard ((hphy _).bind fun _ => all_pure _)
  | getPhyPartNumber => exact hdiscard ((hphy _).bind fun _ => all_pure _)
  | getPhyIdentifier =>
      exact hdiscard ((hphy _).bind fun _ => (hphy _).bind fun _ => all_pure _)
  | getPhyInterrupt => exact hdiscard (hphy _)
  | getPhylinkHasBeenDown => exact hdiscard (hbit _ _)
  | getPhyjabberStatusBit => exact hdiscard (hbit _ _)
  | getPhyPolarityStatus => exact hdiscard (hbit _ _)
  | getPhyDuplexStatus => exact hdiscard (hbit _ _)
  | getPhyLinkStatus => exact hdiscard (hbit _ _)
  | getPhyCollisionStatus => exact hdiscard (hbit _ _)
  | getPhyIsRxStatus => exact hdiscard (hbit _ _)
  | getPhyIsTxStatus => exact hdiscard (hbit _ _)
  | etherTransmit off len =>
      exact hdiscard (all_kept (all_etherTransmit trivial (by decide) off len))
  | etherReceive => exact hdiscard (all_kept (all_etherReceive (fun _ _ => trivial) (by decide)))
  | getEtherInterrupt =>
      refine hdiscard ((all_kept all_getDev).bind fun d => All.ite (all_pure _) ?_)
      exact all_kept (all_receiveReg 1 _)
  | getwakeUpInterrupt => exact hdiscard (all_kept (all_receiveReg 1 _))
  | clear_interrupt flags =>
      by_cases hf : flags = PKTIF
      · subst hf
        exact all_kept_pktDec
      · exact all_kept (all_clear_flag (by decide) hf)
  | global_Int_Set => exact all_kept (all_global_Int_Set (by decide))
  | global_int_Clear => exact all_kept (all_global_int_Clear (by decide))
  | link_change_int_clear => exact all_kept (all_link_change_int_clear (by decide))

/-- `enc28j60_strtDr` keeps the configuration, -/
theorem all_sameSetup_strtDr (n : Nat) : All (fun w w' => w.dev.SameSetup w'.dev) (strtDr n) :=
  all_strtDr (fun _ _ => sameSetup_of_act) ((all_modify _).mpr fun _ => .refl _)
    ((all_BitFieldSet (A := fun _ => True) (S := fun _ => True) trivial _).mono
      fun _ _ => sameSetup_of_act) n

/-- and sets AUTOINC before its last command. -/
theorem triple_autoinc_strtDr (n : Nat) :
    Triple Env (fun _ => True) (fun _ => True) (strtDr n) fun _ w => w.chip.autoinc = true := by
  have hstable : Stable Env (fun _ => True) fun w => w.chip.autoinc = true :=
    stable_of_kept fun _ _ h => h.2
  have hset : Triple Env (fun _ => True) (fun _ => True) (BitFieldSet bank0.ECON2 (1 <<< 7))
      fun _ w => w.chip.autoinc = true := by
    have hbit : ∀ x : Byte, ((x ||| (1 <<< 7)) &&& 0xBF).getLsbD 7 = true := by decide
    refine Triple.bind Triple.trivial fun _ => ?_
    refine Triple.modify ⟨fun _ _ _ _ => trivial, fun _ _ => trivial⟩ (fun _ => hstable) fun w _ => ?_
    show (w.chip.command (opcode.u8BitFieldSet ||| (0x1F &&& bank0.ECON2)) [1 <<< 7]).autoinc = true
    rw [Chip.command_set]
    show (if (w.chip.econ2 ||| (1 <<< 7)).getLsbD 6 then
      Chip.pktDec { w.chip with econ2 := (w.chip.econ2 ||| (1 <<< 7)) &&& 0xBF }
      else { w.chip with econ2 := (w.chip.econ2 ||| (1 <<< 7)) &&& 0xBF }).autoinc = true
    split
    · exact hbit _
    · exact hbit _
  have hrx : Triple Env (fun _ => True) (fun w => w.chip.autoinc = true)
      (BitFieldSet bank0.ECON1 (1 <<< 2)) fun _ w => w.chip.autoinc = true :=
    Triple.frame hstable (all_kept (all_BitFieldSet (by decide) _)) fun _ _ h => h.2
  unfold strtDr
  iterate 11 refine Triple.bind Triple.trivial fun _ => ?_
  exact Triple.bind hset fun _ => hrx

theorem triple_prepared_strtDr (n : Nat) :
    Triple Env (fun _ => True) (fun w => dev.SameSetup w.dev) (strtDr n) fun _ => Prepared := by
  have hsetup : Stable Env (fun _ => True) fun w => dev.SameSetup w.dev :=
    stable_of_kept fun _ _ h hw => hw.trans h.1
  refine Triple.conseq (Triple.and (fun _ _ h => h) (Triple.frame hsetup (all_sameSetup_strtDr n)
    fun _ _ h hw => hw.trans h) (triple_autoinc_strtDr n)) (fun _ hw => ⟨hw, trivial⟩)
    fun _ _ hw => hw

theorem all_kept_translate (p : Pbuf) : All Kept (translate p) := by
  have hact : ∀ w w', Act (· ∈ txAddrs) (txPktLen ≤ ·) w w' → Kept w w' := fun _ _ h =>
    kept_of_act (h.mono (by decide))
  have hgoto : ∀ l, All Kept (goto l) := fun l => (all_modify _).mpr fun _ => ⟨.refl _, id⟩
  refine (hgoto _).bind fun _ => ?_
  refine (all_translateBody hact (fun _ _ h _ => ?_) p).bind fun _ => ?_
  · cases h <;> exact ⟨.refl _, id⟩
  · exact (hgoto _).bind fun _ => all_pure _

/-! ## every state -/

/-- **The driver's invariant.** -/
theorem operated_inv (hw : Operated w) : (∃ t, At t w) ∧ Prepared w := by
  have hprep : ∀ {α : Type} {p : Fw α} {a : α} {w w' : World}, All Kept p → Prepared w →
      Steps Env (p, w) (pure a, w') → Prepared w' := fun hp hw h =>
    (wp.steps (Triple.frame prepared_stable hp (fun _ _ hk => hk.prepared) _ hw) h _ .refl).2
  have hbank : ∀ {α : Type} {p : Fw α} {a : α} {t t' : Trail} {w w' : World}, Keeps t p t' →
      At t w → Steps Env (p, w) (pure a, w') → At t' w' := fun hk hw h =>
    ((Triple.and (fun _ _ => bankEnv_of_env) (Triple.trivial (P := fun _ => True))
      (hk.triple False False.elim) _ ⟨trivial, hw⟩).steps h _ .refl).2.2
  induction hw with
  | start h₀ hd h =>
      refine ⟨⟨_, hbank (Keeps.strtDr _) (at_start h₀) h⟩, ?_⟩
      refine ((triple_prepared_strtDr _ _ ?_).steps h _ .refl).2
      show dev.SameSetup (World.dev _)
      rw [hd]
      exact .refl dev
  | call c _ h ih =>
      obtain ⟨⟨t, ht⟩, hp⟩ := ih
      refine ⟨⟨_, hbank (Keeps.exec _ c) ht h⟩, ?_⟩
      by_cases hc : c = .strtDr
      · subst hc
        exact ((triple_prepared_strtDr _ _ hp.1).steps h _ .refl).2
      · exact hprep (all_kept_exec _ hc) hp h
  | translate p _ _ h ih =>
      obtain ⟨⟨t, ht⟩, hp⟩ := ih
      refine ⟨?_, hprep (all_kept_translate p) hp h⟩
      obtain ⟨t', ht', -⟩ := ((Triple.and (fun _ _ => bankEnv_of_env)
        (Triple.trivial (P := fun _ => True)) (KeepsBank.translate (L := fun _ => True) p) _
        ⟨trivial, t, ht, trivial⟩).steps h _ .refl).2.2
      exact ⟨t', ht'⟩
  | release _ ih =>
      obtain ⟨⟨t, hl, ht⟩, hp⟩ := ih
      exact ⟨⟨t, hl, ht.cached, ht.selected, ht.routed⟩, hp⟩

end Enc28j60
