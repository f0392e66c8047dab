import Enc28j60.Steps

/-!
# Enc28j60.Transmit

One transmission at a time.

The transmitter is in one of three states: idle, in flight (ECON1.TXRTS), or
done and not yet acknowledged (EIR.TXIF); `bTxBusy` should be true in the last
two.  `Tx φ l` says that control is at `l` and that the flag, TXRTS and TXIF
satisfy `φ`.  The chip can only turn TXRTS into TXIF, so an assertion is stable
as soon as it is closed under that, and the actions of every function but three
(`etherTransmit`, the acknowledgement of TXIF, `setTxBusy`) leave all of it alone.
-/

namespace Enc28j60

open Res

/-! ## what is tracked -/

/-- What holds of `bTxBusy`, TXRTS and TXIF at each control point. -/
def txOk : Label → Bool → Bool → Bool → Bool
  | .translate, _, _, _ => true
  | .txAck, busy, rts, txif => !rts && (!txif || busy)
  | _, busy, rts, txif => (busy == (rts || txif)) && !(rts && txif)

/-- Every transaction of `enc28j60_translate` found the transmitter idle. -/
def TxLog (w : World) : Prop :=
  ∀ e ∈ w.log, e.at_ = .translate → e.pre.txrts = false ∧ e.pre.txif = false

/-- The guarantee at every moment. -/
def TxGuard (w : World) : Prop :=
  TxLog w ∧ txOk w.at_ w.bTxBusy w.chip.txrts w.chip.txif = true

/-- Control is at `l` and the transmitter satisfies `φ`. -/
def Tx (φ : Bool → Bool → Bool → Bool) (l : Label) (w : World) : Prop :=
  w.at_ = l ∧ TxLog w ∧ φ w.bTxBusy w.chip.txrts w.chip.txif = true

/- The states of the transmitter. -/
def settled (busy rts txif : Bool) : Bool := (busy == (rts || txif)) && !(rts && txif)
def idle (busy rts txif : Bool) : Bool := !busy && !rts && !txif
def started (busy rts txif : Bool) : Bool := !busy && (rts != txif)
def completed (busy rts txif : Bool) : Bool := busy && !rts && txif
def acked (busy rts txif : Bool) : Bool := busy && !rts && !txif

theorem event_tx {c c' : Chip} (h : Chip.Event c c') :
    (c'.txrts = c.txrts ∧ c'.txif = c.txif) ∨
      (c.txrts = true ∧ c'.txrts = false ∧ c'.txif = true) := by
  have hraise : ∀ v f : Byte, f.getLsbD 3 = false → (v ||| f).getLsbD 3 = v.getLsbD 3 := by
    intro v f hf
    rw [BitVec.getLsbD_or, hf, Bool.or_false]
  have hflags : ∀ f ∈ ([0x01, 0x02, 0x04, 0x20] : List Byte), f.getLsbD 3 = false := by decide
  cases h with
  | receive f hf => exact .inl ⟨rfl, rfl⟩
  | txEnd err hrts =>
      have hclear : ∀ v : Byte, (v &&& 0xF7).getLsbD 3 = false := by decide
      have hset : ∀ v : Byte, (v ||| (if err then 0x0A else 0x08)).getLsbD 3 = true := by
        cases err <;> decide
      exact .inr ⟨hrts, hclear c.econ1, hset c.eir⟩
  | raise flag hflag => exact .inl ⟨rfl, hraise c.eir flag (hflags flag hflag)⟩
  | linkChange => exact .inl ⟨rfl, hraise c.eir 0x10 (by decide)⟩
  | phyStatus a v ha => exact .inl ⟨rfl, rfl⟩

/-- An assertion is stable if the end of a transmission keeps it. -/
theorem tx_stable {φ : Bool → Bool → Bool → Bool} {l : Label}
    (he : ∀ busy txif, φ busy true txif = true → φ busy false true = true)
    (hg : ∀ busy rts txif, φ busy rts txif = true → txOk l busy rts txif = true) :
    Stable Env TxGuard (Tx φ l) where
  env w w' hr hw := by
    obtain ⟨hl, hlog, hφ⟩ := hw
    cases hr with
    | @chip c hc =>
        refine ⟨hl, hlog, ?_⟩
        show φ w.bTxBusy c.txrts c.txif = true
        rcases event_tx hc with ⟨hr, hi⟩ | ⟨hr, hr', hi'⟩
        · rw [hr, hi]
          exact hφ
        · rw [hr', hi']
          rw [hr] at hφ
          exact he _ _ hφ
    | handler he hc => exact ⟨hl, hlog, hφ⟩
    | lwip offered pbufs => exact ⟨hl, hlog, hφ⟩
    | hal b => exact ⟨hl, hlog, hφ⟩
  guard w hw := by
    obtain ⟨hl, hlog, hφ⟩ := hw
    refine ⟨hlog, ?_⟩
    rw [hl]
    exact hg _ _ _ hφ

theorem settled_stable {l : Label}
    (hl : ∀ busy rts txif, settled busy rts txif = true → txOk l busy rts txif = true) :
    Stable Env TxGuard (Tx settled l) :=
  tx_stable (by decide) hl

/-! ## actions that leave the transmitter alone -/

/-- Flag, TXRTS, TXIF and control point are unchanged, and at most one
transaction is recorded. -/
structure TxSame (w w' : World) : Prop where
  busy : w'.bTxBusy = w.bTxBusy
  at_ : w'.at_ = w.at_
  txrts : w'.chip.txrts = w.chip.txrts
  txif : w'.chip.txif = w.chip.txif
  log : w'.log = w.log ∨ ∃ e : Entry, w'.log = e :: w.log ∧ e.at_ = w.at_ ∧ e.pre = w.chip

theorem txLog_cons {w w' : World} {e : Entry} (h : TxLog w) (hlog : w'.log = e :: w.log)
    (he : e.at_ = .translate → e.pre.txrts = false ∧ e.pre.txif = false) : TxLog w' := by
  intro e' hmem
  rw [hlog] at hmem
  rcases List.mem_cons.mp hmem with rfl | hmem
  · exact he
  · exact h e' hmem

/-- A transaction keeps the record right if `translate` issues it only when idle. -/
theorem TxSame.log_ok {w w' : World} (h : TxSame w w') (hlog : TxLog w)
    (hidle : w.at_ = .translate → w.chip.txrts = false ∧ w.chip.txif = false) : TxLog w' := by
  rcases h.log with heq | ⟨e, heq, hat, hpre⟩
  · unfold TxLog
    rw [heq]
    exact hlog
  · refine txLog_cons hlog heq fun ht => ?_
    rw [hpre]
    exact hidle (hat ▸ ht)

theorem TxSame.tx {w w' : World} (h : TxSame w w') {φ : Bool → Bool → Bool → Bool} {l : Label}
    (hidle : l = .translate → ∀ busy rts txif, φ busy rts txif = true → rts = false ∧ txif = false)
    (hw : Tx φ l w) : Tx φ l w' := by
  obtain ⟨hl, hlog, hφ⟩ := hw
  refine ⟨h.at_.trans hl, h.log_ok hlog fun ht => hidle (hl ▸ ht) _ _ _ hφ, ?_⟩
  rw [h.busy, h.txrts, h.txif]
  exact hφ

theorem TxSame.refl_of {w w' : World} (hb : w'.bTxBusy = w.bTxBusy) (ha : w'.at_ = w.at_)
    (hc : w'.chip = w.chip) (hl : w'.log = w.log) : TxSame w w' :=
  ⟨hb, ha, by rw [hc], by rw [hc], .inl hl⟩

theorem txSame_transact {w : World} {reg : Option Byte} {cmd : Byte} {out inp : List Byte}
    {c : Chip} (hr : c.txrts = w.chip.txrts) (hi : c.txif = w.chip.txif) :
    TxSame w (w.transact reg cmd out inp c) :=
  ⟨rfl, rfl, hr, hi, .inr ⟨_, rfl, rfl, rfl⟩⟩

namespace Chip

/-- The only flag an MII access changes is LINKIF. -/
theorem txif_miiRead (c : Chip) : c.miiRead.txif = c.txif := by
  unfold miiRead txif
  split
  · have hmask : ∀ v : Byte, (v &&& 0xEF).getLsbD 3 = v.getLsbD 3 := by decide
    exact hmask c.eir
  · rfl

theorem txif_writeBanked (c : Chip) (b : BitVec 2) (a : BitVec 5) (v : Byte) :
    (c.writeBanked b a v).txif = c.txif :=
  writeBanked_rule (P := fun c' => c'.txif = c.txif) (fun _ _ _ => rfl)
    (fun _ _ c' h => (txif_miiRead c').trans h) fun _ _ h => h

theorem txif_writeReg {c : Chip} {a : BitVec 5} (v : Byte) (h : a ≠ 0x1C) :
    (c.writeReg a v).txif = c.txif := by
  unfold writeReg
  rw [if_neg h]
  repeat' split
  all_goals first
    | rfl
    | exact txif_writeBanked _ _ _ _

theorem txrts_writeReg {c : Chip} {a : BitVec 5} (v : Byte) (h : a ≠ 0x1F) :
    (c.writeReg a v).txrts = c.txrts := by
  unfold txrts
  rw [writeReg_econ1_of_ne v h]

end Chip

theorem chipStep_tx {c c' : Chip} (h : ChipStep Plain c c') :
    c'.txrts = c.txrts ∧ c'.txif = c.txif := by
  cases h with
  | bank v hv =>
      have hbit : ∀ u : Byte, u.getLsbD 3 = (u &&& 0xFC).getLsbD 3 := by decide
      refine ⟨?_, rfl⟩
      show v.getLsbD 3 = c.econ1.getLsbD 3
      rw [hbit v, hbit c.econ1, hv]
  | write a v ha => exact ⟨Chip.txrts_writeReg v ha.2, Chip.txif_writeReg v ha.1⟩
  | poll a =>
      unfold Chip.poll
      repeat' split
      all_goals exact ⟨rfl, rfl⟩
  | read n _ =>
      unfold Chip.txrts Chip.txif
      rw [Chip.eir_readBuffer, Chip.econ1_readBuffer]
      exact ⟨rfl, rfl⟩
  | fill vs _ =>
      unfold Chip.txrts Chip.txif
      rw [Chip.eir_writeBuffer, Chip.econ1_writeBuffer]
      exact ⟨rfl, rfl⟩

theorem txSame_of_act {S : Nat → Prop} {w w' : World} (h : Act Plain S w w') : TxSame w w' := by
  cases h with
  | idle => exact .refl_of rfl rfl rfl rfl
  | sel s => exact .refl_of rfl rfl rfl rfl
  | cache b => exact .refl_of rfl rfl rfl rfl
  | store off bs hs => exact .refl_of rfl rfl rfl rfl
  | spi hc => exact txSame_transact (chipStep_tx hc).1 (chipStep_tx hc).2
  | fetch off hc hs =>
      exact ⟨rfl, rfl, (chipStep_tx hc).1, (chipStep_tx hc).2, .inr ⟨_, rfl, rfl, rfl⟩⟩

/-! ## the functions of the loop -/

theorem tx_of_all {α : Type} {S : Nat → Prop} {p : Fw α} (h : All (Act Plain S) p) : All TxSame p :=
  h.mono fun _ _ => txSame_of_act

/-- An assertion survives every thread that leaves the transmitter alone;
inside `translate` it must say that the transmitter is idle. -/
theorem triple_txSame {α : Type} {p : Fw α} (h : All TxSame p) {φ : Bool → Bool → Bool → Bool}
    {l : Label} (hφ : Stable Env TxGuard (Tx φ l))
    (hidle : l = .translate → ∀ busy rts txif, φ busy rts txif = true → rts = false ∧ txif = false) :
    Triple Env TxGuard (Tx φ l) p fun _ => Tx φ l :=
  Triple.frame hφ h fun _ _ hs => hs.tx hidle

theorem txSame_selectBank (r : Byte) : All TxSame (selectBank r) :=
  tx_of_all (S := fun _ => False) (all_selectBank r)

theorem idle_stable : Stable Env TxGuard (Tx idle .translate) :=
  tx_stable (by decide) (by decide)

theorem triple_idle {α : Type} {p : Fw α} (h : All TxSame p) :
    Triple Env TxGuard (Tx idle .translate) p fun _ => Tx idle .translate :=
  triple_txSame h idle_stable fun _ => by decide

theorem started_stable : Stable Env TxGuard (Tx started .translate) :=
  tx_stable (by decide) (by decide)

/-- Clearing EIR flags other than TXIF. -/
theorem txSame_clear {flags : Byte} (h : flags.getLsbD 3 = false) :
    All TxSame (BitFieldClear bank0.EIR flags) := by
  refine (txSame_selectBank _).bind fun _ => (all_modify _).mpr fun w => ?_
  refine txSame_transact ?_ ?_
  · rw [Chip.command_clear]
    exact Chip.txrts_writeReg _ (by decide)
  · have hr : regAddr bank0.EIR = 0x1C := by decide
    have hmask : ∀ v u : Byte, u.getLsbD 3 = false →
        (((v &&& ~~~u) &&& 0x2F) ||| (v &&& 0x10)).getLsbD 3 = v.getLsbD 3 := by
      intro v u hu
      have hu' : u[3] = false := by simpa using hu
      simp [hu']
    rw [Chip.command_clear, hr]
    exact hmask w.chip.eir flags h

/-- One transaction that takes the transmitter from `φ` to `ψ`. -/
theorem triple_txSend {reg : Option Byte} {cmd : Byte} {out : List Byte}
    {φ ψ : Bool → Bool → Bool → Bool} {l : Label} (hφ : Stable Env TxGuard (Tx φ l))
    (hψ : Stable Env TxGuard (Tx ψ l))
    (hidle : l = .translate → ∀ busy rts txif, φ busy rts txif = true → rts = false ∧ txif = false)
    (h : ∀ (busy : Bool) (c : Chip), φ busy c.txrts c.txif = true →
      ψ busy (c.command cmd out).txrts (c.command cmd out).txif = true) :
    Triple Env TxGuard (Tx φ l) (spiSend reg cmd out) fun _ => Tx ψ l := by
  refine Triple.modify hφ (fun _ => hψ) fun w hw => ?_
  obtain ⟨hl, hlog, hw⟩ := hw
  refine ⟨hl, txLog_cons hlog rfl fun ht => ?_, h _ _ hw⟩
  exact hidle (hl.symm.trans ht) _ _ _ hw

theorem tx_clear_txif (c : Chip) :
    (c.command (opcode.u8BitFieldClear ||| (0x1F &&& bank0.EIR)) [TXIF]).txrts = c.txrts ∧
      (c.command (opcode.u8BitFieldClear ||| (0x1F &&& bank0.EIR)) [TXIF]).txif = false := by
  have hr : regAddr bank0.EIR = 0x1C := by decide
  have hbit : ∀ v : Byte,
      (((v &&& ~~~TXIF) &&& 0x2F) ||| (v &&& 0x10)).getLsbD 3 = false := by decide
  rw [Chip.command_clear, hr]
  exact ⟨Chip.txrts_writeReg _ (by decide), hbit c.eir⟩

theorem tx_set_txrts (c : Chip) :
    (c.command (opcode.u8BitFieldSet ||| (0x1F &&& bank0.ECON1)) [1 <<< 3]).txrts = true ∧
      (c.command (opcode.u8BitFieldSet ||| (0x1F &&& bank0.ECON1)) [1 <<< 3]).txif = c.txif := by
  have hr : regAddr bank0.ECON1 = 0x1F := by decide
  have hbit : ∀ v : Byte, (v ||| 0x08).getLsbD 3 = true := by decide
  rw [Chip.command_set, hr]
  exact ⟨hbit c.econ1, Chip.txif_writeReg _ (by decide)⟩

/-- `enc28j60_etherTransmit` starts a transmission on an idle transmitter. -/
theorem triple_etherTransmit (off : Nat) (len : BitVec 16) :
    Triple Env TxGuard (Tx idle .translate) (etherTransmit off len)
      fun _ => Tx started .translate := by
  have hload : All (Act Plain fun _ => True) (loadFrame off len) :=
    all_loadFrame trivial (by decide) off len
  have heie : ∀ v : Byte, All TxSame (BitFieldSet bank0.EIE v) := fun v =>
    tx_of_all (S := fun _ => False) (all_BitFieldSet (A := Plain) (by decide) v)
  unfold etherTransmit
  refine Triple.bind (triple_idle (tx_of_all hload)) fun _ => ?_
  refine Triple.bind (M := fun _ => Tx idle .translate) ?_ fun _ => ?_
  · refine Triple.bind (triple_idle (txSame_selectBank _)) fun _ => ?_
    refine triple_txSend idle_stable idle_stable (fun _ => by decide) fun busy c hc => ?_
    obtain ⟨hr, hi⟩ := tx_clear_txif c
    rw [show ((1 <<< 3 : Nat) : Byte) = TXIF from rfl, hr, hi]
    cases hb : busy <;> cases hrts : c.txrts <;> simp_all [idle]
  refine Triple.bind (triple_idle (heie _)) fun _ => ?_
  refine Triple.bind (triple_idle (heie _)) fun _ => ?_
  refine Triple.bind (M := fun _ => Tx started .translate) ?_ fun _ =>
    Triple.pure (Q := fun _ => Tx started .translate) started_stable
  refine Triple.bind (triple_idle (txSame_selectBank _)) fun _ => ?_
  refine triple_txSend idle_stable started_stable (fun _ => by decide) fun busy c hc => ?_
  obtain ⟨hr, hi⟩ := tx_set_txrts c
  rw [hr, hi]
  cases hb : busy <;> cases htxif : c.txif <;> simp_all [idle, started]

/-- `bTxBusy` changes; the rest of the transmitter does not. -/
theorem triple_setTxBusy {φ ψ : Bool → Bool → Bool → Bool} {l : Label} (b : Bool)
    (hφ : Stable Env TxGuard (Tx φ l)) (hψ : Stable Env TxGuard (Tx ψ l))
    (h : ∀ busy rts txif, φ busy rts txif = true → ψ b rts txif = true) :
    Triple Env TxGuard (Tx φ l) (setTxBusy b) fun _ => Tx ψ l :=
  Triple.modify hφ (fun _ => hψ) fun _ hw => ⟨hw.1, hw.2.1, h _ _ _ hw.2.2⟩

/-- Control moves on; the transmitter does not change. -/
theorem triple_goto {φ : Bool → Bool → Bool → Bool} {l l' : Label}
    (hφ : Stable Env TxGuard (Tx φ l)) (hφ' : Stable Env TxGuard (Tx φ l')) :
    Triple Env TxGuard (Tx φ l) (goto l') fun _ => Tx φ l' :=
  Triple.modify hφ (fun _ => hφ') fun _ hw => ⟨rfl, hw.2.1, hw.2.2⟩

theorem triple_serviced {φ : Bool → Bool → Bool → Bool} {l : Label} {err : Bool}
    (hφ : Stable Env TxGuard (Tx φ l)) (hφ' : Stable Env TxGuard (Tx φ (.serviced err))) :
    Triple Env TxGuard (Tx φ l) (serviced err) fun _ => Tx φ (.serviced err) :=
  Triple.modify hφ (fun _ => hφ') fun _ hw => ⟨rfl, hw.2.1, hw.2.2⟩

theorem txSame_copySegs (segs : List Seg) (offset : BitVec 16) :
    All TxSame (copySegs segs offset) := by
  induction segs generalizing offset with
  | nil => exact all_pure offset
  | cons q next ih =>
      refine All.bind ?_ fun _ => ih _
      exact (all_modify _).mpr fun _ => .refl_of rfl rfl rfl rfl

/- `settled` inside `translate` and at the other control points. -/
theorem settled_translate : Stable Env TxGuard (Tx settled .translate) :=
  settled_stable (by decide)

theorem settled_loop : Stable Env TxGuard (Tx settled .loop) := settled_stable (by decide)

/-- `enc28j60_translate` finds the transmitter settled and leaves it settled. -/
theorem triple_translateBody (p : Pbuf) :
    Triple Env TxGuard (Tx settled .translate) (translateBody p)
      fun _ => Tx settled .translate := by
  have hsettled : ∀ a : Err, Triple Env TxGuard (Tx settled .translate) (pure a)
      fun _ => Tx settled .translate := fun a =>
    Triple.pure (Q := fun _ => Tx settled .translate) settled_translate
  have hweaken : ∀ w, Tx idle .translate w → Tx settled .translate w := fun w hw =>
    ⟨hw.1, hw.2.1, (by decide : ∀ b r i, idle b r i = true → settled b r i = true) _ _ _ hw.2.2⟩
  unfold translateBody
  refine Triple.bind (M := fun busy w => Tx (if busy then settled else idle) .translate w) ?_
    fun busy => ?_
  · refine Triple.gets settled_translate (fun busy => ?_) fun w hw => ?_
    · cases busy
      · exact idle_stable
      · exact settled_translate
    · obtain ⟨hl, hlog, hs⟩ := hw
      refine ⟨hl, hlog, ?_⟩
      cases hb : w.bTxBusy <;> cases hr : w.chip.txrts <;> cases hi : w.chip.txif <;>
        simp_all [settled, idle]
  · cases busy with
    | true => exact hsettled _
    | false =>
        refine Triple.bind (triple_idle (txSame_copySegs _ _)) fun offset => ?_
        split
        · exact Triple.conseq (hsettled _) hweaken fun _ _ hw => hw
        · refine Triple.bind (triple_etherTransmit _ _) fun _ => ?_
          refine Triple.bind ?_ fun _ => hsettled _
          exact triple_setTxBusy true started_stable settled_translate (by decide)

theorem triple_translate (p : Pbuf) :
    Triple Env TxGuard (Tx settled .loop) (translate p) fun _ => Tx settled .loop := by
  unfold translate
  refine Triple.bind (triple_goto settled_loop settled_translate) fun _ => ?_
  refine Triple.bind (triple_translateBody p) fun err => ?_
  refine Triple.bind (triple_goto settled_translate settled_loop) fun _ => ?_
  exact Triple.pure (Q := fun _ => Tx settled .loop) settled_loop

theorem triple_linkOutput :
    Triple Env TxGuard (Tx settled .loop) linkOutput fun _ => Tx settled .loop := by
  unfold linkOutput
  refine Triple.bind (M := fun _ => Tx settled .loop) ?_ fun frames => ?_
  · exact Triple.gets settled_loop (fun _ => settled_loop) fun w hw => hw
  · induction frames with
    | nil => exact Triple.pure (Q := fun _ => Tx settled .loop) settled_loop
    | cons p next ih => exact Triple.bind (triple_translate p) fun _ => ih

theorem triple_settled {α : Type} {p : Fw α} (h : All TxSame p) :
    Triple Env TxGuard (Tx settled .loop) p fun _ => Tx settled .loop :=
  triple_txSame h settled_loop nofun

/-! ## the flags of a snapshot -/

theorem txSame_clear_interrupt {flags : Byte} (h : flags.getLsbD 3 = false) :
    All TxSame (clear_interrupt flags) := by
  unfold clear_interrupt
  split
  · refine All.ite ?_ (txSame_clear h)
    exact tx_of_all (S := fun _ => False) (all_BitFieldSet (A := Plain) (by decide) _)
  · exact all_pure ()

theorem txSame_global_Int_Set : All TxSame global_Int_Set :=
  tx_of_all (S := fun _ => False) (all_global_Int_Set (A := Plain) (by decide))

theorem txSame_global_int_Clear : All TxSame global_int_Clear :=
  tx_of_all (S := fun _ => False) (all_global_int_Clear (A := Plain) (by decide))

theorem txSame_etherReceive : All TxSame etherReceive :=
  tx_of_all (all_etherReceive (A := Plain) (S := fun _ => True) (fun _ _ => trivial) (by decide))

theorem triple_deliver :
    Triple Env TxGuard (Tx settled .loop) deliver fun _ => Tx settled .loop := by
  unfold deliver
  refine Triple.bind (M := fun _ => Tx settled .loop) ?_ fun ethBuffer => ?_
  · exact Triple.gets settled_loop (fun _ => settled_loop) fun w hw => hw
  · cases ethBuffer with
    | none => exact Triple.pure (Q := fun _ => Tx settled .loop) settled_loop
    | some lens =>
        refine Triple.bind (triple_settled (tx_of_all (S := fun _ => False) all_getDev)) fun d => ?_
        refine Triple.bind (triple_settled ?_) fun _ => triple_linkOutput
        exact (all_modify _).mpr fun _ => .refl_of rfl rfl rfl rfl

theorem triple_servicePacket :
    Triple Env TxGuard (Tx settled .loop) servicePacket fun _ => Tx settled .loop := by
  have hserviced : ∀ err, Stable Env TxGuard (Tx settled (.serviced err)) := fun err =>
    settled_stable fun _ _ _ h => h
  unfold servicePacket
  refine Triple.bind (triple_settled txSame_etherReceive) fun err => ?_
  refine Triple.bind (triple_settled (txSame_clear_interrupt (by decide))) fun _ => ?_
  refine Triple.bind (triple_serviced settled_loop (hserviced err)) fun _ => ?_
  refine Triple.bind (triple_goto (hserviced err) settled_loop) fun _ => ?_
  split
  · exact triple_deliver
  · exact Triple.pure (Q := fun _ => Tx settled .loop) settled_loop

/-- The flags before TXIF do not concern the transmitter. -/
theorem txSame_serviceBit {fuel cnt : Nat} (h : cnt < 3) : All TxSame (serviceBit fuel cnt) := by
  match cnt, h with
  | 0, _ => exact txSame_clear_interrupt (by decide)
  | 1, _ => exact txSame_clear_interrupt (by decide)
  | 2, _ => exact all_pure ()

/-- Case 3: the completion is acknowledged, then the flag is reset. -/
theorem triple_ackTx (fuel : Nat) :
    Triple Env TxGuard (Tx completed .loop) (serviceBit fuel 3) fun _ => Tx settled .loop := by
  have hcompleted : ∀ l, l = .loop ∨ l = .txAck → Stable Env TxGuard (Tx completed l) := by
    rintro l (rfl | rfl)
    · exact tx_stable (by decide) (by decide)
    · exact tx_stable (by decide) (by decide)
  have hacked : Stable Env TxGuard (Tx acked .txAck) := tx_stable (by decide) (by decide)
  have hidle : Stable Env TxGuard (Tx idle .txAck) := tx_stable (by decide) (by decide)
  have hidle' : Stable Env TxGuard (Tx idle .loop) := tx_stable (by decide) (by decide)
  refine Triple.bind (triple_goto (hcompleted _ (.inl rfl)) (hcompleted _ (.inr rfl)))
    fun _ => ?_
  refine Triple.bind (M := fun _ => Tx acked .txAck) ?_ fun _ => ?_
  · refine Triple.bind (triple_txSame (txSame_selectBank _) (hcompleted _ (.inr rfl)) nofun)
      fun _ => ?_
    refine triple_txSend (hcompleted _ (.inr rfl)) hacked nofun fun busy c hc => ?_
    obtain ⟨hr, hi⟩ := tx_clear_txif c
    rw [hr, hi]
    cases hb : busy <;> cases hrts : c.txrts <;> simp_all [completed, acked]
  refine Triple.bind (triple_setTxBusy false hacked hidle (by decide)) fun _ => ?_
  refine Triple.conseq (triple_goto hidle hidle') (fun _ hw => hw) fun _ w hw => ?_
  exact ⟨hw.1, hw.2.1, (by decide : ∀ b r i, idle b r i = true → settled b r i = true)
    _ _ _ hw.2.2⟩

theorem triple_serviceBit {fuel cnt : Nat} (h : cnt ≠ 3) :
    Triple Env TxGuard (Tx settled .loop) (serviceBit fuel cnt) fun _ => Tx settled .loop := by
  unfold serviceBit
  split
  · exact triple_settled (txSame_clear_interrupt (by decide))
  · exact triple_settled (txSame_clear_interrupt (by decide))
  · exact Triple.pure (Q := fun _ => Tx settled .loop) settled_loop
  · exact absurd rfl h
  · refine Triple.bind (triple_settled (tx_of_all (S := fun _ => False)
      (all_readPhyReg (A := Plain) (by decide) fuel _))) fun _ => ?_
    exact triple_settled (tx_of_all (S := fun _ => False)
      (all_link_change_int_clear (A := Plain) (by decide)))
  · exact triple_settled (txSame_clear_interrupt (by decide))
  · exact triple_servicePacket
  · exact Triple.pure (Q := fun _ => Tx settled .loop) settled_loop

/-- What the snapshot says of the transmitter: if it shows TXIF, a completion is
pending. -/
def pending (u8Value : Byte) : Bool → Bool → Bool → Bool :=
  if u8Value.getLsbD 3 = true then completed else settled

theorem completed_stable : Stable Env TxGuard (Tx completed .loop) :=
  tx_stable (by decide) (by decide)

theorem pending_stable (u8Value : Byte) : Stable Env TxGuard (Tx (pending u8Value) .loop) := by
  unfold pending
  split
  · exact completed_stable
  · exact settled_loop

theorem triple_serviceFlag {fuel cnt : Nat} {u8Value : Byte} {φ ψ : Bool → Bool → Bool → Bool}
    (hφ : Stable Env TxGuard (Tx φ .loop)) (hψ : Stable Env TxGuard (Tx ψ .loop))
    (h : u8Value.getLsbD cnt = true →
      Triple Env TxGuard (Tx φ .loop) (serviceBit fuel cnt) fun _ => Tx ψ .loop)
    (h' : u8Value.getLsbD cnt ≠ true → φ = ψ) :
    Triple Env TxGuard (Tx φ .loop) (serviceFlag fuel u8Value cnt) fun _ => Tx ψ .loop := by
  unfold serviceFlag
  split
  case isTrue hset =>
    refine Triple.bind (triple_txSame txSame_global_int_Clear hφ nofun) fun _ => ?_
    refine Triple.bind (h hset) fun _ => ?_
    exact triple_txSame txSame_global_Int_Set hψ nofun
  case isFalse hclear =>
    rw [h' hclear]
    exact Triple.pure (Q := fun _ => Tx ψ .loop) hψ

theorem triple_serviceFlag_settled {fuel cnt : Nat} {u8Value : Byte}
    (h : cnt = 3 → u8Value.getLsbD cnt ≠ true) :
    Triple Env TxGuard (Tx settled .loop) (serviceFlag fuel u8Value cnt)
      fun _ => Tx settled .loop :=
  triple_serviceFlag settled_loop settled_loop
    (fun hset => triple_serviceBit fun hcnt => h hcnt hset) fun _ => rfl

/-- No frame is sent before TXIF is acknowledged. -/
theorem triple_serviceTx (fuel : Nat) (u8Value : Byte) :
    Triple Env TxGuard (Tx (pending u8Value) .loop) (serviceFlags fuel u8Value (List.range 8))
      fun _ => Tx settled .loop := by
  unfold pending
  split
  case isTrue hset =>
    refine triple_serviceFlags_at settled_loop List.pairwise_lt_range (k := 3) (by decide) ?_ ?_ ?_
    · exact fun cnt hlt => triple_serviceFlag completed_stable completed_stable
        (fun _ => triple_txSame (txSame_serviceBit hlt) completed_stable nofun) fun _ => rfl
    · exact triple_serviceFlag completed_stable settled_loop (fun _ => triple_ackTx fuel)
        fun hclear => absurd hset hclear
    · exact fun cnt hlt => triple_serviceFlag_settled fun hcnt => absurd hlt (by omega)
  case isFalse hclear =>
    refine triple_serviceFlags_of_forall settled_loop fun cnt _ => triple_serviceFlag_settled ?_
    rintro rfl
    exact hclear

/-! ## the loop -/

theorem txif_eirValue (c : Chip) : c.eirValue.getLsbD 3 = c.txif := by
  have hmask : ∀ v : Byte, ((v &&& 0x3F) ||| 0x40).getLsbD 3 = v.getLsbD 3 ∧
      ((v &&& 0x3F) ||| 0).getLsbD 3 = v.getLsbD 3 := by decide
  unfold Chip.eirValue Chip.txif
  split
  · exact (hmask c.eir).2
  · exact (hmask c.eir).1

theorem completed_of_settled {busy rts txif : Bool} (h : settled busy rts txif = true)
    (hi : txif = true) : completed busy rts txif = true := by
  subst hi
  revert busy rts
  decide

/-- A snapshot that shows TXIF is taken of a completed transmission. -/
theorem triple_snapshotTx :
    Triple Env TxGuard (Tx settled .loop) snapshot
      fun u8Value => Tx (pending u8Value) .loop := by
  unfold snapshot
  refine Triple.bind (M := fun v => Tx (pending v) .loop) ?_ fun v => ?_
  · refine Triple.bind (triple_settled (txSame_selectBank _)) fun _ => ?_
    refine Triple.act settled_loop (fun v => pending_stable v) fun w hw => ?_
    dsimp only
    rw [Chip.readControl_eir]
    obtain ⟨hl, hlog, hs⟩ := (txSame_transact (c := w.chip) rfl rfl).tx (l := .loop) nofun hw
    refine ⟨hl, hlog, ?_⟩
    unfold pending
    split
    case isTrue hset => exact completed_of_settled hs (txif_eirValue w.chip ▸ hset)
    case isFalse => exact hs
  · refine Triple.bind (M := fun _ => Tx (pending v) .loop) ?_ fun _ => ?_
    · exact Triple.modify (pending_stable v) (fun _ => pending_stable v)
        fun w hw => ⟨hw.1, nofun, hw.2.2⟩
    · exact Triple.pure (Q := fun v => Tx (pending v) .loop) (pending_stable v)

theorem triple_passTx (fuel : Nat) :
    Triple Env TxGuard (Tx settled .loop) (pass fuel) fun _ => Tx settled .loop := by
  have hend : ∀ v b, Stable Env TxGuard (Tx settled (.passEnd v b)) := fun v b =>
    settled_stable fun _ _ _ h => h
  unfold pass
  refine Triple.bind (triple_settled (tx_of_all (S := fun _ => False) all_getDev)) fun d => ?_
  refine Triple.bind triple_snapshotTx fun u8Value => ?_
  refine Triple.bind (triple_serviceTx fuel u8Value) fun _ => ?_
  refine Triple.bind (triple_goto settled_loop (hend u8Value d.bnBank)) fun _ => ?_
  exact triple_goto (hend u8Value d.bnBank) settled_loop

theorem triple_loopTx (fuel : Nat) :
    Triple Env TxGuard (Tx settled .loop) (loopBody fuel) fun _ => Tx settled .loop := by
  have hgets : ∀ f : World → BitVec 32, All TxSame (Res.gets f) := fun f =>
    (all_gets f).mpr fun _ => .refl_of rfl rfl rfl rfl
  unfold loopBody serviceInterrupts
  refine Triple.bind triple_linkOutput fun _ => ?_
  refine Triple.bind (triple_settled (hgets _)) fun n => ?_
  split
  · refine Triple.bind (triple_settled ?_) fun _ => triple_passTx fuel
    refine (hgets _).bind fun n => ?_
    exact (all_modify _).mpr fun _ => .refl_of rfl rfl rfl rfl
  · exact Triple.pure (Q := fun _ => Tx settled .loop) settled_loop

/-- A soft reset or start-up step finds and leaves the transmitter idle. -/
theorem triple_strtDrTx (fuel : Nat) :
    Triple Env TxGuard (Tx idle .loop) (strtDr fuel) fun _ => Tx idle .loop := by
  have hstable : Stable Env TxGuard (Tx idle .loop) := tx_stable (by decide) (by decide)
  refine Triple.frame (K := fun w w' => Tx idle .loop w → Tx idle .loop w') hstable
    (all_strtDr ?_ ?_ ?_ fuel) fun _ _ h => h
  · exact fun w w' hact hw => (txSame_of_act hact).tx nofun hw
  · refine (all_modify _).mpr fun w hw => ⟨hw.1, txLog_cons hw.2.1 rfl fun ht => ?_, ?_⟩
    · exact absurd (hw.1.symm.trans ht) (by decide)
    · have hbusy : w.bTxBusy = false := by
        have hi := hw.2.2
        cases hb : w.bTxBusy <;> simp_all [idle]
      rw [Chip.command_softReset]
      show idle w.bTxBusy w.chip.softReset.txrts w.chip.softReset.txif = true
      simp [hbusy, idle, Chip.softReset, Chip.txrts, Chip.txif]
  · have hr : regAddr bank0.ECON1 = 0x1F := by decide
    have hbit : ∀ v : Byte, (v ||| 0x04).getLsbD 3 = v.getLsbD 3 := by decide
    refine All.bind ((txSame_selectBank _).mono fun w w' hs hw => hs.tx nofun hw) fun _ => ?_
    refine (all_modify _).mpr fun w hw => (txSame_transact ?_ ?_).tx nofun hw
    · rw [Chip.command_set, hr]
      exact hbit w.chip.econ1
    · rw [Chip.command_set, hr]
      exact Chip.txif_writeReg _ (by decide)

/-- **One transmission at a time.**  At every moment after power-on: outside
`enc28j60_translate` and the acknowledgement of TXIF, `bTxBusy` is true exactly
when a transmission is in flight or its completion is pending; while TXIF is
being acknowledged no transmission is in flight; and every SPI transaction of
`enc28j60_translate` finds the transmitter idle. -/
theorem bTxBusy_of_reachable {fuel : Nat} {w w' : World} {c : Ctl World} (hw : AtReset w)
    (h : Reachable fuel w (c, w')) :
    (w'.at_ ≠ .translate → w'.at_ ≠ .txAck →
      (w'.bTxBusy = true ↔ w'.chip.txrts = true ∨ w'.chip.txif = true)) ∧
    (w'.at_ = .txAck → w'.chip.txrts = false ∧ (w'.chip.txif = true → w'.bTxBusy = true)) ∧
    (∀ e ∈ w'.log, e.at_ = .translate → e.pre.txrts = false ∧ e.pre.txif = false) := by
  have hidle : Tx idle .loop w := by
    refine ⟨hw.at_, ?_, ?_⟩
    · unfold TxLog
      rw [hw.log]
      exact nofun
    · unfold Chip.txrts Chip.txif
      rw [hw.bTxBusy, hw.econ1, hw.eir]
      rfl
  have hweaken : ∀ w, Tx idle .loop w → Tx settled .loop w := fun w hw =>
    ⟨hw.1, hw.2.1, (by decide : ∀ b r i, idle b r i = true → settled b r i = true) _ _ _ hw.2.2⟩
  have hinv : Loop.Inv Env TxGuard (Tx settled .loop) (.run (strtDr fuel), w) :=
    (triple_strtDrTx fuel w hidle).mono fun _ => hweaken
  have hguard : TxGuard w' :=
    Loop.Inv.guard settled_loop (Loop.sound settled_loop (triple_loopTx fuel) hinv h)
  obtain ⟨hlog, hok⟩ := hguard
  refine ⟨fun ht ha => ?_, fun ha => ?_, hlog⟩
  · have hs : settled w'.bTxBusy w'.chip.txrts w'.chip.txif = true := by
      cases hl : w'.at_ with
      | translate => exact absurd hl ht
      | txAck => exact absurd hl ha
      | loop => rwa [hl] at hok
      | serviced err => rwa [hl] at hok
      | passEnd v b => rwa [hl] at hok
    cases hb : w'.bTxBusy <;> cases hr : w'.chip.txrts <;> cases hi : w'.chip.txif <;>
      simp_all [settled]
  · rw [ha] at hok
    cases hb : w'.bTxBusy <;> cases hr : w'.chip.txrts <;> cases hi : w'.chip.txif <;>
      simp_all [txOk]

/-- A start-up, after which the statement is about the head of the loop. -/
theorem bTxBusy_of_reachable_powerOn :
    ∃ w', Reachable 1 World.powerOn (.head, w') ∧
      (w'.bTxBusy = true ↔ w'.chip.txrts = true ∨ w'.chip.txif = true) := by
  have hrun : (Res.run (strtDr 1) World.powerOn).map (fun r => r.2.at_) = some .loop := by
    decide +kernel
  obtain ⟨⟨_, w'⟩, hw', hat⟩ := Option.map_eq_some_iff.mp hrun
  have hreach : Reachable 1 World.powerOn (.head, w') := Loop.steps_of_run Env _ hw'
  refine ⟨w', hreach, (bTxBusy_of_reachable atReset_powerOn hreach).1 ?_ ?_⟩
  · exact fun h => absurd (hat.symm.trans h) (by decide)
  · exact fun h => absurd (hat.symm.trans h) (by decide)

/-! ## between the acknowledgement and the flag -/

/-- Power-on with one frame of one byte to send. -/
def oneFrame : World := { World.powerOn with offered := [⟨[⟨[0xAA], by decide⟩], 1⟩] }

/-- The first round of the loop up to the end of the send. -/
def oneFrameSent (w : World) : Res World Unit × World := advance 50 (loopBody 1, w)

/-- The chip ends the transmission. -/
def txEnded (w : World) : World :=
  w.drive { w.chip with econ1 := w.chip.econ1 &&& 0xF7, eir := w.chip.eir ||| 0x08 }

/-- The same round up to the acknowledgement of TXIF. -/
def oneFrameAcked (w : World) : Res World Unit × World :=
  advance 18 ((oneFrameSent w).1, handled (txEnded (oneFrameSent w).2))

/-- After the bit field clear of EIR.TXIF and before `bTxBusy = false` the flag
is true with nothing in flight and nothing pending. -/
theorem not_bTxBusy_iff :
    ¬ ∀ (fuel : Nat) (w w' : World) (c : Ctl World), AtReset w → Reachable fuel w (c, w') →
      w'.at_ ≠ .translate →
      (w'.bTxBusy = true ↔ w'.chip.txrts = true ∨ w'.chip.txif = true) := by
  intro h
  have hrun : (Res.run (strtDr 1) oneFrame).map (fun r =>
      (oneFrameSent r.2).2.chip.txrts && (txEnded (oneFrameSent r.2).2).exti &&
      (txEnded (oneFrameSent r.2).2).enc28j60intCounter == 0 &&
      (oneFrameAcked r.2).2.at_ == .txAck && (oneFrameAcked r.2).2.bTxBusy &&
      !(oneFrameAcked r.2).2.chip.txrts && !(oneFrameAcked r.2).2.chip.txif) = some true := by
    decide +kernel
  obtain ⟨⟨_, w₁⟩, hw₁, hall⟩ := Option.map_eq_some_iff.mp hrun
  simp only [Bool.and_eq_true, Bool.not_eq_true', beq_iff_eq] at hall
  obtain ⟨⟨⟨⟨⟨⟨hrts, hexti⟩, hcount⟩, hat⟩, hbusy⟩, hrts'⟩, htxif⟩ := hall
  have hsent : Reachable 1 oneFrame (.run (oneFrameSent w₁).1, (oneFrameSent w₁).2) :=
    ((Loop.steps_of_run Env _ hw₁).tail .enter).trans
      (Loop.steps_of_steps _ (steps_advance Env 50 (loopBody 1, w₁)))
  have hended := (hsent.tail (.env (.chip (.txEnd false hrts)))).tail
    (.env (.handler hexti fun hmax => absurd (hcount.symm.trans hmax) (by decide)))
  have hacked : Reachable 1 oneFrame (.run (oneFrameAcked w₁).1, (oneFrameAcked w₁).2) :=
    hended.trans (Loop.steps_of_steps _ (steps_advance Env 18 _))
  have hiff := h 1 oneFrame _ _ ⟨rfl, rfl, rfl, rfl, rfl, rfl, rfl, rfl, rfl, rfl⟩ hacked
    (by rw [hat]; decide)
  rw [hrts', htxif] at hiff
  exact absurd (hiff.mp hbusy) (by decide)

end Enc28j60
