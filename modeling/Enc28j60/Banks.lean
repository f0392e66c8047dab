import Enc28j60.Commands
import Enc28j60.Driver

/-!
# Enc28j60.Banks

The cached bank `bnBank` beside the chip's own BSEL.

`enc28j60_bankChange` updates the cache on one branch only, and a soft reset not
at all, so the two can differ: the cache then still names the last bank other
than 0, and BSEL is 0.  A `Trail` is this history; `At t` says that the banks
are as `t` says, and `Keeps t p t'` that `p` takes history `t` to `t'`, whatever
happens between its actions.  One rule per register access, and each driver
function is a chain of them.
-/

namespace Enc28j60

open Res

/-! ## the history of bank accesses -/

/-- What the calls so far have done to the banks. -/
structure Trail where
  /-- The last bank other than 0 that was entered. -/
  last : Bank
  /-- Bank 0 was entered, or the chip reset, since then. -/
  left : Bool
  /-- Every register command so far reached the register it names. -/
  routed : Bool
  deriving DecidableEq

namespace Trail

/-- Power-on: no bank but 0 was ever entered. -/
def start : Trail := ⟨.bank_0, true, true⟩

/-- Bank `b` was entered last, but for bank 0 or a reset after it. -/
def stale (t : Trail) (b : Bank) : Bool := t.left && b == t.last && b != .bank_0

/-- The history after an access to register `r`. -/
def access (t : Trail) (r : Byte) : Trail :=
  let b := convertRegValToBank r
  { last := if b = .bank_0 then t.last else b
    left := b == .bank_0 || (t.left && b == t.last)
    routed := t.routed && (isCommon r || !t.stale b) }

/-- The history after accesses to several registers. -/
def visit (t : Trail) (rs : List Byte) : Trail := rs.foldl access t

/-- The history after bank 0 was selected, by an access or by a soft reset. -/
def leave (t : Trail) : Trail := { t with left := true }

/-- What BSEL is after such a history. -/
def sel (t : Trail) : BitVec 2 := if t.left then 0 else t.last.bits

end Trail

/-! ## what is tracked -/

/-- Every register command so far was executed while BSEL was the bank of the
register it names, or names a common register. -/
def Routed (w : World) : Prop :=
  ∀ e ∈ w.log, ∀ r ∈ e.reg, isCommon r = true ∨ e.pre.bsel = (convertRegValToBank r).bits

/-- Anything may happen between two actions of the driver, except to the cached
bank, to BSEL and to the record of its own transactions. -/
def BankEnv (w w' : World) : Prop :=
  w'.dev.bnBank = w.dev.bnBank ∧ w'.chip.bsel = w.chip.bsel ∧ w'.log = w.log

/-- Cached bank, selected bank, and whether every command so far was routed. -/
structure Banks (c : Bank) (s : BitVec 2) (φ : Bool) (w : World) : Prop where
  cached : w.dev.bnBank = c
  selected : w.chip.bsel = s
  routed : Routed w ↔ φ = true

theorem routed_transact_none {w : World} {cmd : Byte} {out inp : List Byte} {c : Chip} :
    Routed (w.transact none cmd out inp c) ↔ Routed w := by
  simp [Routed, World.transact, World.drive]

theorem routed_transact_some {w : World} {r cmd : Byte} {out inp : List Byte} {c : Chip} :
    Routed (w.transact (some r) cmd out inp c) ↔
      (isCommon r = true ∨ w.chip.bsel = (convertRegValToBank r).bits) ∧ Routed w := by
  simp [Routed, World.transact, World.drive]

/-- The rest of a history can only lose the property. -/
def Goal (Φ : Prop) (w : World) : Prop := Φ → Routed w

theorem Banks.stable {c : Bank} {s : BitVec 2} {φ : Bool} {Φ : Prop} (h : Φ → φ = true) :
    Stable BankEnv (Goal Φ) (Banks c s φ) where
  env w w' hr hw := by
    obtain ⟨hd, hc, hl⟩ := hr
    refine ⟨hd.trans hw.cached, hc.trans hw.selected, ?_⟩
    rw [← hw.routed]
    unfold Routed
    rw [hl]
  guard w hw hΦ := hw.routed.mpr (h hΦ)

section Prims

variable {c : Bank} {s s' : BitVec 2} {φ : Bool} {Φ : Prop}

theorem triple_spiSend_none {cmd : Byte} {out : List Byte} (hΦ : Φ → φ = true)
    (h : ∀ chip : Chip, chip.bsel = s → (chip.command cmd out).bsel = s') :
    Triple BankEnv (Goal Φ) (Banks c s φ) (spiSend none cmd out) fun _ => Banks c s' φ := by
  refine Triple.modify (Banks.stable hΦ) (fun _ => Banks.stable hΦ) fun w hw => ?_
  exact ⟨hw.cached, h _ hw.selected, routed_transact_none.trans hw.routed⟩

theorem routed_iff_of_banks {w : World} {r cmd : Byte} {out inp : List Byte} {chip : Chip}
    (hw : Banks c s φ w) :
    Routed (w.transact (some r) cmd out inp chip) ↔
      (φ && (isCommon r || s == (convertRegValToBank r).bits)) = true := by
  rw [routed_transact_some, hw.routed, hw.selected]
  simp [and_comm]

theorem triple_spiSend_some {r cmd : Byte} {out : List Byte}
    (hΦ : Φ → (φ && (isCommon r || s == (convertRegValToBank r).bits)) = true)
    (h : ∀ chip : Chip, (chip.command cmd out).bsel = chip.bsel) :
    Triple BankEnv (Goal Φ) (Banks c s φ) (spiSend (some r) cmd out)
      fun _ => Banks c s (φ && (isCommon r || s == (convertRegValToBank r).bits)) := by
  have hφ : Φ → φ = true := fun hp => ((Bool.and_eq_true _ _).mp (hΦ hp)).1
  refine Triple.modify (Banks.stable hφ) (fun _ => Banks.stable hΦ) fun w hw => ?_
  exact ⟨hw.cached, (h _).trans hw.selected, routed_iff_of_banks hw⟩

theorem triple_spiReadControl {r cmd : Byte} {n : Nat}
    (hΦ : Φ → (φ && (isCommon r || s == (convertRegValToBank r).bits)) = true) :
    Triple BankEnv (Goal Φ) (Banks c s φ) (spiReadControl r cmd n)
      fun _ => Banks c s (φ && (isCommon r || s == (convertRegValToBank r).bits)) := by
  have hφ : Φ → φ = true := fun hp => ((Bool.and_eq_true _ _).mp (hΦ hp)).1
  refine Triple.act (Banks.stable hφ) (fun _ => Banks.stable hΦ) fun w hw => ?_
  exact ⟨hw.cached, (Chip.bsel_poll _ _).trans hw.selected, routed_iff_of_banks hw⟩

end Prims

/-- A step that changes neither bank and names no register. -/
structure Neutral (w w' : World) : Prop where
  cached : w'.dev.bnBank = w.dev.bnBank
  selected : w'.chip.bsel = w.chip.bsel
  routed : Routed w' ↔ Routed w

theorem Neutral.banks {w w' : World} (h : Neutral w w') {c : Bank} {s : BitVec 2} {φ : Bool}
    (hw : Banks c s φ w) : Banks c s φ w' :=
  ⟨h.cached.trans hw.cached, h.selected.trans hw.selected, h.routed.trans hw.routed⟩

theorem neutral_transact {w : World} {cmd : Byte} {out inp : List Byte} {c : Chip}
    (h : c.bsel = w.chip.bsel) : Neutral w (w.transact none cmd out inp c) :=
  ⟨rfl, h, routed_transact_none⟩

/-! ## one access -/

/-- The banks are as the history says. -/
def At (t : Trail) (w : World) : Prop :=
  t.last ≠ .undefBank ∧ Banks t.last t.sel t.routed w

/-- `p` takes history `t` to history `t'`. -/
structure Keeps {α : Type} (t : Trail) (p : Fw α) (t' : Trail) : Prop where
  mono : t'.routed = true → t.routed = true
  triple : ∀ Φ : Prop, (Φ → t'.routed = true) →
    Triple BankEnv (Goal Φ) (At t) p fun _ => At t'

theorem At.stable {t : Trail} {Φ : Prop} (h : Φ → t.routed = true) :
    Stable BankEnv (Goal Φ) (At t) :=
  (Banks.stable h).pure_and

instance : Inhabited Dev := ⟨dev⟩

theorem convertRegValToBank_ne_undef (r : Byte) : convertRegValToBank r ≠ .undefBank := by
  unfold convertRegValToBank
  repeat' split
  all_goals simp

theorem regAddr_econ1 (b : Bank) : regAddr b.econ1 = 0x1F := by
  cases b <;> decide

theorem bsel_clear (chip : Chip) (b : Bank) :
    (chip.command (opcode.u8BitFieldClear ||| (0x1F &&& b.econ1)) [0x03]).bsel = 0 := by
  rw [Chip.command_clear, regAddr_econ1]
  unfold Chip.bitFieldClear Chip.bsel
  simp [Chip.writeReg, Chip.fieldValue, Chip.readReg, BitVec.setWidth_and]

theorem bsel_set {chip : Chip} (h : chip.bsel = 0) (b : Bank) :
    (chip.command (opcode.u8BitFieldSet ||| (0x1F &&& bank0.ECON1)) [convertBankToBits b]).bsel
      = b.bits := by
  have hr : regAddr bank0.ECON1 = 0x1F := by decide
  rw [Chip.command_set, hr]
  unfold Chip.bsel at h
  unfold Chip.bitFieldSet Chip.bsel Bank.bits
  simp [Chip.writeReg, Chip.fieldValue, Chip.readReg, BitVec.setWidth_or, h]

section Access

variable {α : Type} {c : Bank} {s : BitVec 2} {φ : Bool} {Φ : Prop} {Q : α → World → Prop}

theorem triple_getDev {f : Dev → Fw α} (hΦ : Φ → φ = true)
    (h : ∀ d : Dev, d.bnBank = c → Triple BankEnv (Goal Φ) (Banks c s φ) (f d) Q) :
    Triple BankEnv (Goal Φ) (Banks c s φ) (getDev >>= f) Q := by
  refine Triple.bind (M := fun d w => d.bnBank = c ∧ Banks c s φ w) ?_
    fun d => Triple.of_pure (h d)
  exact Triple.gets (Banks.stable hΦ) (fun _ => (Banks.stable hΦ).pure_and)
    fun w hw => ⟨hw.cached, hw⟩

/-- `enc28j60_bankChange` selects the bank, but remembers it only if it is not bank 0. -/
theorem triple_bankChange (hΦ : Φ → φ = true) (hc : c ≠ .undefBank) {b : Bank}
    (hb : b ≠ .undefBank) :
    Triple BankEnv (Goal Φ) (Banks c s φ) (bankChange b)
      fun _ => Banks (if b = .bank_0 then c else b) b.bits φ := by
  unfold bankChange
  refine triple_getDev hΦ fun d hd => ?_
  rw [if_neg (by rw [hd]; exact hc)]
  refine Triple.bind (triple_spiSend_none hΦ fun chip _ => bsel_clear chip d.bnBank) fun _ => ?_
  by_cases h0 : b = .bank_0
  · subst h0
    exact Triple.pure (Banks.stable hΦ)
  · have hbits : convertBankToBits b ≠ 0 ∧ convertBankToBits b ≤ 3 := by
      cases b <;> simp_all <;> decide
    simp only [if_pos hbits, if_neg h0]
    refine Triple.bind (triple_spiSend_none hΦ fun chip hs => bsel_set hs b) fun _ => ?_
    exact Triple.modify (Banks.stable hΦ) (fun _ => Banks.stable hΦ)
      fun w hw => ⟨rfl, hw.selected, hw.routed⟩

end Access

/-- The history once the bank of register `r` has been selected. -/
def Trail.enter (t : Trail) (r : Byte) : Trail := { t.access r with routed := t.routed }

theorem bits_eq_zero {b : Bank} (h : b ≠ .undefBank) :
    (0 : BitVec 2) = b.bits ↔ b = .bank_0 := by
  cases b with
  | undefBank => exact absurd rfl h
  | _ => decide

theorem Trail.enter_sel_of_ne {t : Trail} {r : Byte} (h : convertRegValToBank r ≠ t.last) :
    (t.enter r).sel = (convertRegValToBank r).bits := by
  unfold enter access sel
  by_cases h0 : convertRegValToBank r = .bank_0
  · rw [h0]
    rfl
  · simp [h0, h]

theorem Trail.enter_sel_of_eq {t : Trail} {r : Byte} (h : convertRegValToBank r = t.last) :
    (t.enter r).sel = t.sel := by
  unfold enter access sel
  rw [h]
  by_cases h0 : t.last = .bank_0
  · rw [h0]
    cases t.left <;> rfl
  · simp [h0]

theorem Trail.enter_last_of_eq {t : Trail} {r : Byte} (h : convertRegValToBank r = t.last) :
    (t.enter r).last = t.last := by
  unfold enter access
  rw [h]
  exact ite_self _

/-- The command that follows is routed unless the bank is stale. -/
theorem Trail.access_routed (t : Trail) (r : Byte) :
    (t.access r).routed =
      (t.routed && (isCommon r || (t.enter r).sel == (convertRegValToBank r).bits)) := by
  by_cases h : convertRegValToBank r = t.last
  · have hbits := bits_eq_zero (convertRegValToBank_ne_undef r)
    rw [enter_sel_of_eq h]
    unfold access stale sel
    rw [h] at hbits ⊢
    cases t.left with
    | false => simp
    | true => simp [bne, Bool.beq_eq_decide_eq, ← hbits]
  · rw [enter_sel_of_ne h]
    simp [access, stale, h]

theorem triple_selectBank {t : Trail} {Φ : Prop} (hΦ : Φ → t.routed = true) (r : Byte) :
    Triple BankEnv (Goal Φ) (At t) (selectBank r) fun _ => At (t.enter r) := by
  have hb := convertRegValToBank_ne_undef r
  refine Triple.of_pure fun hl => ?_
  unfold selectBank
  refine triple_getDev hΦ fun d hd => ?_
  rw [hd]
  by_cases heq : convertRegValToBank r = t.last
  · rw [if_neg (not_not.mpr heq)]
    unfold At
    rw [Trail.enter_last_of_eq heq, Trail.enter_sel_of_eq heq]
    exact Triple.conseq (Triple.pure (Q := fun _ => Banks t.last t.sel t.routed) (Banks.stable hΦ))
      (fun _ hw => hw) fun _ _ hw => ⟨hl, hw⟩
  · rw [if_pos heq]
    refine Triple.conseq (triple_bankChange hΦ hl hb) (fun _ hw => hw) fun _ w hw => ?_
    unfold At
    rw [Trail.enter_sel_of_ne heq]
    refine ⟨?_, hw⟩
    show (if _ then _ else _) ≠ _
    split
    · exact hl
    · exact hb

namespace Keeps

variable {α β : Type} {t t' t'' : Trail}

theorem pure (a : α) : Keeps t (pure a : Fw α) t where
  mono h := h
  triple _ h := Triple.pure (Q := fun _ => At t) (At.stable h)

theorem bind [Inhabited α] {p : Fw α} {f : α → Fw β} (hp : Keeps t p t')
    (hf : ∀ a, Keeps t' (f a) t'') : Keeps t (p >>= f) t'' where
  mono h := hp.mono ((hf default).mono h)
  triple Φ h := Triple.bind (hp.triple Φ fun hΦ => (hf default).mono (h hΦ))
    fun a => (hf a).triple Φ h

theorem act {f : World → α × World} (h : ∀ w, Neutral w (f w).2) : Keeps t (Res.act f) t where
  mono h := h
  triple _ hΦ := Triple.act (At.stable hΦ) (fun _ => At.stable hΦ)
    fun w hw => ⟨hw.1, (h w).banks hw.2⟩

theorem modify {f : World → World} (h : ∀ w, Neutral w (f w)) : Keeps t (Res.modify f) t :=
  act h

theorem getDev {f : Dev → Fw α} (hf : ∀ d : Dev, d.bnBank = t.last → Keeps t (f d) t') :
    Keeps t (getDev >>= f) t' where
  mono h := (hf { dev with bnBank := t.last } rfl).mono h
  triple Φ h := by
    have hm := fun hΦ => (hf { dev with bnBank := t.last } rfl).mono (h hΦ)
    refine Triple.of_pure fun hl => triple_getDev hm fun d hd => ?_
    exact Triple.conseq ((hf d hd).triple Φ h) (fun _ hw => ⟨hl, hw⟩) fun _ _ hw => hw

theorem selectBank (r : Byte) : Keeps t (selectBank r) (t.enter r) where
  mono h := h
  triple _ h := triple_selectBank (t := t) h r

/-- The register command after the bank switch. -/
theorem access_of {p : Fw α} {r : Byte}
    (h : ∀ (c : Bank) (s : BitVec 2) (φ : Bool) (Φ : Prop),
      (Φ → (φ && (isCommon r || s == (convertRegValToBank r).bits)) = true) →
      Triple BankEnv (Goal Φ) (Banks c s φ) p
        fun _ => Banks c s (φ && (isCommon r || s == (convertRegValToBank r).bits))) :
    Keeps (t.enter r) p (t.access r) where
  mono hr := by
    rw [Trail.access_routed] at hr
    exact ((Bool.and_eq_true _ _).mp hr).1
  triple Φ hΦ := by
    rw [Trail.access_routed] at hΦ
    unfold At
    rw [Trail.access_routed]
    refine Triple.of_pure fun hl => ?_
    exact Triple.conseq (h _ _ _ Φ hΦ) (fun _ hw => hw) fun _ _ hw => ⟨hl, hw⟩

/-- A bit field or write command that spares BSEL. -/
theorem sendReg {op r v : Byte}
    (h : ∀ chip : Chip, (chip.command (op ||| (0x1F &&& r)) [v]).bsel = chip.bsel) :
    Keeps t (sendReg op r v) (t.access r) :=
  (Keeps.selectBank r).bind fun _ => access_of fun _ _ _ _ hΦ => triple_spiSend_some hΦ h

theorem receiveReg (n : Nat) (r : Byte) : Keeps t (receiveReg n r) (t.access r) :=
  (Keeps.selectBank r).bind fun _ => access_of fun _ _ _ _ hΦ => triple_spiReadControl hΦ

theorem writeReg {r : Byte} (v : Byte) (h : regAddr r ≠ 0x1F) :
    Keeps t (writeReg r v) (t.access r) := by
  refine sendReg fun chip => ?_
  rw [Chip.command_write]
  exact Chip.bsel_writeReg v h

theorem BitFieldSet {r v : Byte} (h : regAddr r = 0x1F → v.setWidth 2 = (0 : BitVec 2)) :
    Keeps t (BitFieldSet r v) (t.access r) := by
  refine sendReg fun chip => ?_
  rw [Chip.command_set]
  exact Chip.bsel_bitFieldSet h

theorem BitFieldClear {r : Byte} (v : Byte) (h : regAddr r ≠ 0x1F) :
    Keeps t (BitFieldClear r v) (t.access r) := by
  refine sendReg fun chip => ?_
  rw [Chip.command_clear]
  exact Chip.bsel_bitFieldClear h

theorem sftRst : Keeps t sftRst t.leave where
  mono h := h
  triple _ hΦ := by
    refine Triple.of_pure fun hl => ?_
    exact Triple.conseq (triple_spiSend_none hΦ fun chip _ => Chip.bsel_softReset chip)
      (fun _ hw => hw) fun _ _ hw => ⟨hl, hw⟩

/-- A poll loop whose body keeps the history it leaves. -/
theorem pollWhile {body : Fw Bool} (h : Keeps t body t') (h' : Keeps t' body t') (fuel : Nat) :
    Keeps t (Res.pollWhile body fuel) t' := by
  have loop : ∀ n, Keeps t' (Res.pollWhile body n) t' := fun n => by
    refine ⟨fun hr => hr, fun Φ hΦ => ?_⟩
    refine Triple.pollWhile (At.stable hΦ) (At.stable hΦ) ?_ n
    exact Triple.conseq (h'.triple Φ hΦ) (fun _ hw => hw) fun again _ hw => by
      cases again <;> exact hw
  cases fuel with
  | zero => exact ⟨h.mono, fun Φ hΦ => Triple.stuck (At.stable fun hp => h.mono (hΦ hp))⟩
  | succ n =>
      refine h.bind fun again => ?_
      cases again with
      | true => exact loop n
      | false => exact Keeps.pure ()

end Keeps

/-! ## the driver's functions -/

/-- A second access to the same register finds its bank selected. -/
theorem Trail.access_access (t : Trail) (r : Byte) : (t.access r).access r = t.access r := by
  unfold access stale
  by_cases h0 : convertRegValToBank r = .bank_0
  · simp [h0]
  · cases t.left <;> cases t.routed <;> simp [h0]

namespace Keeps

variable {α : Type} {t t' t'' : Trail}

theorem congr {u : Trail} {p : Fw α} (h : Keeps t p u) (hu : u = t') : Keeps t p t' := hu ▸ h

theorem delayMs (n : Nat) : Keeps t (delayMs n) t := modify fun _ => ⟨rfl, rfl, .rfl⟩

theorem modifyDev {f : Dev → Dev} (h : ∀ d, (f d).bnBank = d.bnBank) :
    Keeps t (modifyDev f) t :=
  modify fun w => ⟨h w.dev, rfl, .rfl⟩

theorem modifyDev_setU16 (off : Nat) (v : Dev → BitVec 16) :
    Keeps t (Enc28j60.modifyDev fun d => d.setU16 off (v d)) t :=
  modifyDev fun _ => rfl

theorem readEtherReg (r : Byte) : Keeps t (readEtherReg r) (t.access r) := receiveReg 1 r

theorem readMacMIIReg (r : Byte) : Keeps t (readMacMIIReg r) (t.access r) := receiveReg 2 r

theorem writeReg16 {rl rh : Byte} (v : BitVec 16) (hl : regAddr rl ≠ 0x1F)
    (hh : regAddr rh ≠ 0x1F) : Keeps t (writeReg16 rl rh v) ((t.access rl).access rh) :=
  (writeReg _ hl).bind fun _ => writeReg _ hh

theorem waitMii (fuel : Nat) : Keeps t (waitMii fuel) (t.access bank3.MISTAT) := by
  have hbody : ∀ u : Trail, Keeps u (do
      let v ← Enc28j60.readMacMIIReg bank3.MISTAT
      Pure.pure (v.getLsbD 0) : Fw Bool) (u.access bank3.MISTAT) := fun u =>
    (readMacMIIReg _).bind fun _ => Keeps.pure _
  exact pollWhile (hbody t) ((hbody _).congr (Trail.access_access _ _)) fuel

theorem waitClock (fuel : Nat) : Keeps t (waitClock fuel) (t.access bank0.ESTAT) := by
  have hbody : ∀ u : Trail, Keeps u (do
      let v ← Enc28j60.readEtherReg bank0.ESTAT
      Pure.pure (!v.getLsbD 0) : Fw Bool) (u.access bank0.ESTAT) := fun u =>
    (readEtherReg _).bind fun _ => Keeps.pure _
  exact pollWhile (hbody t) ((hbody _).congr (Trail.access_access _ _)) fuel

end Keeps

namespace Trail

/-- The history after a PHY access: it enters banks 2, 3 and, to read, 2 again. -/
def phyRead (t : Trail) : Trail := ⟨.bank_2, false, t.routed && !t.stale .bank_2⟩

def phyWrite (t : Trail) : Trail := ⟨.bank_3, false, t.routed && !t.stale .bank_2⟩

end Trail

namespace Keeps

variable {t : Trail}

theorem readPhyReg (fuel : Nat) (addr : Byte) : Keeps t (readPhyReg fuel addr) t.phyRead := by
  refine congr (u := t.visit [bank2.MIREGADR, bank2.MICMD, bank2.MICMD, bank3.MISTAT,
    bank2.MICMD, bank2.MICMD, bank2.MIRDH, bank2.MIRDL]) ?_ ?_
  · refine (writeReg _ (by decide)).bind fun _ => ?_
    refine (readMacMIIReg _).bind fun _ => ?_
    refine (writeReg _ (by decide)).bind fun _ => ?_
    refine (delayMs 1).bind fun _ => ?_
    refine (waitMii fuel).bind fun _ => ?_
    refine (readMacMIIReg _).bind fun _ => ?_
    refine (writeReg _ (by decide)).bind fun _ => ?_
    refine (readMacMIIReg _).bind fun _ => ?_
    refine (readMacMIIReg _).bind fun _ => ?_
    exact pure _
  · obtain ⟨last, left, routed⟩ := t
    cases last <;> cases left <;> cases routed <;> decide

theorem writePhyReg (fuel : Nat) (addr : Byte) (v : BitVec 16) :
    Keeps t (writePhyReg fuel addr v) t.phyWrite := by
  refine congr (u := t.visit [bank2.MIREGADR, bank2.MIWRL, bank2.MIWRH, bank3.MISTAT]) ?_ ?_
  · refine (writeReg _ (by decide)).bind fun _ => ?_
    refine (writeReg16 _ (by decide) (by decide)).bind fun _ => ?_
    refine (delayMs 1).bind fun _ => ?_
    exact waitMii fuel
  · obtain ⟨last, left, routed⟩ := t
    cases last <;> cases left <;> cases routed <;> decide

theorem spiOpen (cmd : Byte) : Keeps t (spiOpen cmd) t := modify fun _ => ⟨rfl, rfl, .rfl⟩

theorem spiClose : Keeps t spiClose t := modify fun _ => ⟨rfl, rfl, .rfl⟩

theorem spiRead (off n : Nat) : Keeps t (spiRead off n) t := by
  refine act fun w => ?_
  dsimp only
  split
  · exact ⟨rfl, Chip.bsel_readBuffer n w.chip, routed_transact_none⟩
  · exact ⟨rfl, rfl, .rfl⟩

theorem spiWriteBuffer (vs : List Byte) :
    Keeps t (spiSend none opcode.u8WriteBufferMemory vs) t :=
  modify fun w => neutral_transact (by rw [Chip.command_writeBuffer, Chip.bsel_writeBuffer])

end Keeps

/-- Bank 0's registers, and the common ones under their bank-0 numbers. -/
theorem Trail.access_bank0 (t : Trail) {r : Byte} (h : convertRegValToBank r = .bank_0) :
    t.access r = t.leave := by
  unfold access stale leave
  simp [h]

namespace Keeps

variable {t : Trail}

section Bank0

variable {r rl rh : Byte} (hb : convertRegValToBank r = .bank_0)
include hb

theorem writeReg_bank0 (v : Byte) (h : regAddr r ≠ 0x1F) :
    Keeps t (Enc28j60.writeReg r v) t.leave :=
  (writeReg v h).congr (t.access_bank0 hb)

theorem BitFieldSet_bank0 {v : Byte} (h : regAddr r = 0x1F → v.setWidth 2 = (0 : BitVec 2)) :
    Keeps t (Enc28j60.BitFieldSet r v) t.leave :=
  (BitFieldSet h).congr (t.access_bank0 hb)

theorem BitFieldClear_bank0 (v : Byte) (h : regAddr r ≠ 0x1F) :
    Keeps t (Enc28j60.BitFieldClear r v) t.leave :=
  (BitFieldClear v h).congr (t.access_bank0 hb)

end Bank0

theorem writeReg16_bank0 {rl rh : Byte} (v : BitVec 16)
    (h : convertRegValToBank rl = .bank_0 ∧ convertRegValToBank rh = .bank_0)
    (hl : regAddr rl ≠ 0x1F ∧ regAddr rh ≠ 0x1F) :
    Keeps t (Enc28j60.writeReg16 rl rh v) t.leave :=
  (writeReg_bank0 h.1 _ hl.1).bind fun _ => writeReg_bank0 h.2 _ hl.2

theorem loadFrame (off : Nat) (len : BitVec 16) :
    Keeps t (Enc28j60.loadFrame off len) t.leave := by
  refine getDev fun d _ => ?_
  refine (writeReg16_bank0 _ (by decide) (by decide)).bind fun _ => ?_
  refine (writeReg16_bank0 _ (by decide) (by decide)).bind fun _ => ?_
  refine (modifyDev_setU16 _ _).bind fun _ => ?_
  refine getDev fun d _ => ?_
  refine (spiWriteBuffer _).bind fun _ => ?_
  exact writeReg16_bank0 _ (by decide) (by decide)

theorem etherTransmit (off : Nat) (len : BitVec 16) :
    Keeps t (Enc28j60.etherTransmit off len) t.leave := by
  refine (loadFrame off len).bind fun _ => ?_
  refine (BitFieldClear_bank0 rfl _ (by decide)).bind fun _ => ?_
  refine (BitFieldSet_bank0 rfl (by decide)).bind fun _ => ?_
  refine (BitFieldSet_bank0 rfl (by decide)).bind fun _ => ?_
  refine (BitFieldSet_bank0 rfl (by decide)).bind fun _ => ?_
  exact pure true

theorem checkPktLen : Keeps t Enc28j60.checkPktLen t := by
  refine getDev fun d _ => ?_
  split
  · exact (modifyDev_setU16 rxPktLen fun _ => 0).bind fun _ => pure false
  · exact pure true

theorem etherReceive : Keeps t Enc28j60.etherReceive t.leave := by
  refine getDev fun d _ => ?_
  refine (writeReg16_bank0 _ (by decide) (by decide)).bind fun _ => ?_
  refine (spiOpen _).bind fun _ => ?_
  refine (spiRead _ _).bind fun _ => ?_
  refine (modifyDev_setU16 _ _).bind fun _ => ?_
  refine (spiRead _ _).bind fun _ => ?_
  refine (modifyDev_setU16 _ _).bind fun _ => ?_
  refine checkPktLen.bind fun _ => ?_
  refine getDev fun d _ => ?_
  refine (spiRead _ _).bind fun _ => ?_
  refine spiClose.bind fun _ => ?_
  refine getDev fun d _ => ?_
  refine (writeReg16_bank0 _ (by decide) (by decide)).bind fun _ => ?_
  exact pure _

/-- EIR has a number in every bank, so reading it never switches banks. -/
theorem getEtherInterrupt :
    Keeps t Enc28j60.getEtherInterrupt (t.access (commonRegs.EIR t.last.toByte)) := by
  refine getDev fun d hd => ?_
  rw [hd]
  by_cases hl : t.last = .undefBank
  · rw [if_pos hl]
    refine ⟨fun hr => ((Bool.and_eq_true _ _).mp hr).1, fun _ _ => Triple.of_pure fun h => ?_⟩
    exact absurd hl h
  · rw [if_neg hl]
    exact readEtherReg _

theorem clear_interrupt (flags : Byte) :
    Keeps t (Enc28j60.clear_interrupt flags) (if flags.toNat ≤ 64 then t.leave else t) := by
  unfold Enc28j60.clear_interrupt
  split
  · split
    · exact BitFieldSet_bank0 rfl (by decide)
    · exact BitFieldClear_bank0 rfl _ (by decide)
  · exact pure ()

theorem bufferInit : Keeps t Enc28j60.bufferInit t.leave := by
  refine getDev fun d _ => ?_
  refine (writeReg16_bank0 _ (by decide) (by decide)).bind fun _ => ?_
  refine (writeReg16_bank0 _ (by decide) (by decide)).bind fun _ => ?_
  refine (writeReg16_bank0 _ (by decide) (by decide)).bind fun _ => ?_
  refine (writeReg16_bank0 _ (by decide) (by decide)).bind fun _ => ?_
  refine (writeReg16_bank0 _ (by decide) (by decide)).bind fun _ => ?_
  exact writeReg16_bank0 _ (by decide) (by decide)

theorem phyInit (fuel : Nat) :
    Keeps t (Enc28j60.phyInit fuel) t.phyRead.phyWrite.phyRead.phyWrite := by
  refine (readPhyReg fuel _).bind fun _ => ?_
  refine (writePhyReg fuel _ _).bind fun _ => ?_
  refine (readPhyReg fuel _).bind fun _ => ?_
  exact writePhyReg fuel _ _

/-- MAC registers are in bank 2, the station address in bank 3. -/
theorem macInit : Keeps t Enc28j60.macInit
    (t.visit [bank2.MACLCON2, bank3.MAADR5]) := by
  refine congr (u := t.visit [bank2.MACLCON2, bank2.MACLCON2, bank2.MACON1, bank2.MACON1,
    bank2.MACON3, bank2.MACON3, bank2.MAMXFLL, bank2.MAMXFLH, bank2.MABBIPG, bank2.MAIPGL,
    bank3.MAADR0, bank3.MAADR1, bank3.MAADR2, bank3.MAADR3, bank3.MAADR4, bank3.MAADR5]) ?_ ?_
  · refine (readMacMIIReg _).bind fun _ => ?_
    refine (writeReg _ (by decide)).bind fun _ => ?_
    refine (readMacMIIReg _).bind fun _ => ?_
    refine (writeReg _ (by decide)).bind fun _ => ?_
    refine (readMacMIIReg _).bind fun _ => ?_
    refine (writeReg _ (by decide)).bind fun _ => ?_
    refine getDev fun d _ => ?_
    refine (writeReg16 _ (by decide) (by decide)).bind fun _ => ?_
    refine (writeReg _ (by decide)).bind fun _ => ?_
    refine (writeReg _ (by decide)).bind fun _ => ?_
    refine (writeReg _ (by decide)).bind fun _ => ?_
    refine (writeReg _ (by decide)).bind fun _ => ?_
    refine (writeReg _ (by decide)).bind fun _ => ?_
    refine (writeReg _ (by decide)).bind fun _ => ?_
    refine (writeReg _ (by decide)).bind fun _ => ?_
    exact writeReg _ (by decide)
  · obtain ⟨last, left, routed⟩ := t
    cases last <;> cases left <;> cases routed <;> decide

/-- `enc28j60_strtDr` reads the PHY (bank 2), then programs the buffer pointers
(bank 0), then enters bank 2 again: the command after that is misrouted. -/
theorem strtDr (fuel : Nat) : Keeps t (Enc28j60.strtDr fuel) ⟨.bank_1, true, false⟩ := by
  refine congr (u := (((t.leave.access bank0.ESTAT).phyRead.phyRead.phyRead.phyRead.leave.phyRead
    |>.phyWrite.phyRead.phyWrite.visit [bank2.MACLCON2, bank3.MAADR5]).access
      bank1.ERXFCON).leave) ?_ ?_
  · refine sftRst.bind fun _ => ?_
    refine (delayMs 1).bind fun _ => ?_
    refine (waitClock fuel).bind fun _ => ?_
    refine ((readPhyReg fuel _).bind fun _ => pure _).bind fun _ => ?_
    refine ((readPhyReg fuel _).bind fun _ => pure _).bind fun _ => ?_
    refine ((readPhyReg fuel _).bind fun _ => (readPhyReg fuel _).bind fun _ => pure _).bind
      fun _ => ?_
    refine bufferInit.bind fun _ => ?_
    refine (phyInit fuel).bind fun _ => ?_
    refine macInit.bind fun _ => ?_
    refine (writeReg _ (by decide)).bind fun _ => ?_
    refine (writeReg_bank0 rfl _ (by decide)).bind fun _ => ?_
    refine (BitFieldSet_bank0 rfl (by decide)).bind fun _ => ?_
    exact BitFieldSet_bank0 rfl (by decide)
  · obtain ⟨last, left, routed⟩ := t
    cases last <;> cases left <;> cases routed <;> decide

end Keeps

end Enc28j60
