import Enc28j60.Commands
import Enc28j60.Main

/-!
# Enc28j60.Steps

What one action of the driver can change, said once.

`ChipStep A` is a chip transition of the driver that writes only registers whose
address is in `A`; `Act A S` is an action of the driver around such a transition,
which stores in the packet image only at offsets in `S`.  Every driver function is `All (Act A S)`
for the addresses it names, so a fact that `Act A S` preserves is preserved by
the function (`Triple.frame`), and no later module unfolds it.
-/

namespace Enc28j60

open Res

/-- A chip transition through one SPI transaction. -/
inductive ChipStep (A : BitVec 5 → Prop) : Chip → Chip → Prop
  /-- `enc28j60_bankChange`: only BSEL changes. -/
  | bank {c : Chip} (v : Byte) (h : v &&& 0xFC = c.econ1 &&& 0xFC) :
      ChipStep A c { c with econ1 := v }
  | write {c : Chip} (a : BitVec 5) (v : Byte) (h : A a) : ChipStep A c (c.writeReg a v)
  | poll {c : Chip} (a : BitVec 5) : ChipStep A c (c.poll a)
  /-- Both buffer memory commands carry 0x1A in their argument field. -/
  | read {c : Chip} (n : Nat) (h : A 0x1A) : ChipStep A c (c.readBuffer n).2
  | fill {c : Chip} (vs : List Byte) (h : A 0x1A) : ChipStep A c (c.writeBuffer vs)

/-- An action of the driver. -/
inductive Act (A : BitVec 5 → Prop) (S : Nat → Prop) : World → World → Prop
  | idle {w : World} : Act A S w w
  | sel {w : World} (sel : Byte) : Act A S w { w with sel }
  | cache {w : World} (bnBank : Bank) : Act A S w { w with dev := { w.dev with bnBank } }
  | store {w : World} (off : Nat) (bs : List Byte) (h : S off) :
      Act A S w { w with dev := w.dev.store off bs }
  | spi {w : World} {reg : Option Byte} {cmd : Byte} {out inp : List Byte} {c : Chip}
      (h : ChipStep A w.chip c) : Act A S w (w.transact reg cmd out inp c)
  | fetch {w : World} {cmd : Byte} {inp : List Byte} {c : Chip} (off : Nat)
      (h : ChipStep A w.chip c) (hs : S off) :
      Act A S w { w.transact none cmd [] inp c with dev := w.dev.store off inp }

/- The addresses each function writes; 0x1A stands for the buffer memory. -/
def phyAddrs : List (BitVec 5) := [0x14, 0x12]
def rxAddrs : List (BitVec 5) := [0x00, 0x01, 0x0C, 0x0D, 0x1A]
def loadAddrs : List (BitVec 5) := [0x02, 0x03, 0x04, 0x05, 0x06, 0x07, 0x1A]
def txAddrs : List (BitVec 5) := loadAddrs ++ [0x1C, 0x1B, 0x1F]

/-- Any register address but those of EIR and ECON1. -/
abbrev Plain (a : BitVec 5) : Prop := a ≠ 0x1C ∧ a ≠ 0x1F

variable {A : BitVec 5 → Prop} {S : Nat → Prop}

theorem ChipStep.mono {B : BitVec 5 → Prop} {c c' : Chip} (h : ChipStep A c c')
    (hAB : ∀ a, A a → B a) : ChipStep B c c' := by
  cases h with
  | bank v hv => exact .bank v hv
  | write a v ha => exact .write a v (hAB a ha)
  | poll a => exact .poll a
  | read n ha => exact .read n (hAB _ ha)
  | fill vs ha => exact .fill vs (hAB _ ha)

theorem Act.mono {B : BitVec 5 → Prop} {w w' : World} (h : Act A S w w')
    (hAB : ∀ a, A a → B a) : Act B S w w' := by
  cases h with
  | idle => exact .idle
  | sel s => exact .sel s
  | cache b => exact .cache b
  | store off bs hs => exact .store off bs hs
  | spi hc => exact .spi (hc.mono hAB)
  | fetch off hc hs => exact .fetch off (hc.mono hAB) hs

/-- Fewer addresses, and stores anywhere. -/
theorem Act.weaken {B : BitVec 5 → Prop} {w w' : World} (h : Act A S w w')
    (hAB : ∀ a, A a → B a) : Act B (fun _ => True) w w' := by
  cases h with
  | idle => exact .idle
  | sel s => exact .sel s
  | cache b => exact .cache b
  | store off bs hs => exact .store off bs trivial
  | spi hc => exact .spi (hc.mono hAB)
  | fetch off hc hs => exact .fetch off (hc.mono hAB) trivial

/-! ## register access -/

theorem all_getDev : All (Act A S) getDev := by
  unfold getDev
  rw [all_gets]
  exact fun w => .idle

theorem all_delayMs (n : Nat) : All (Act A S) (delayMs n) := by
  unfold delayMs
  rw [all_modify]
  exact fun w => .idle

theorem all_store {off : Nat} (hs : S off) (bs : Dev → List Byte) :
    All (Act A S) (modifyDev fun d => d.store off (bs d)) :=
  (all_modify _).mpr fun w => .store off (bs w.dev) hs

theorem all_setU16 {off : Nat} (hs : S off) (v : Dev → BitVec 16) :
    All (Act A S) (modifyDev fun d => d.setU16 off (v d)) :=
  all_store hs fun d => [lo (v d), hi (v d)]

theorem chipStep_clear (c : Chip) (b : Bank) :
    ChipStep A c (c.command (opcode.u8BitFieldClear ||| (0x1F &&& b.econ1)) [0x03]) := by
  have hr : regAddr b.econ1 = 0x1F := by cases b <;> decide
  have hmask : ∀ v : Byte, (v &&& ~~~0x03) &&& 0xFC = v &&& 0xFC := by decide
  rw [Chip.command_clear, hr]
  exact .bank (c.econ1 &&& ~~~0x03) (hmask c.econ1)

theorem chipStep_set (c : Chip) (b : Bank) (hb : convertBankToBits b ≤ 3) :
    ChipStep A c (c.command (opcode.u8BitFieldSet ||| (0x1F &&& bank0.ECON1))
      [convertBankToBits b]) := by
  have hr : regAddr bank0.ECON1 = 0x1F := by decide
  have hmask : ∀ v : Byte, (v ||| convertBankToBits b) &&& 0xFC = v &&& 0xFC := by
    cases b <;> decide
  rw [Chip.command_set, hr]
  exact .bank (c.econ1 ||| convertBankToBits b) (hmask c.econ1)

theorem all_bankChange (b : Bank) : All (Act A S) (bankChange b) := by
  unfold bankChange
  refine all_getDev.bind fun d => ?_
  split
  · exact all_pure ()
  · refine All.bind ((all_modify _).mpr fun w => .spi (chipStep_clear _ _)) fun _ => ?_
    dsimp only
    split
    case isTrue h =>
      refine All.bind ((all_modify _).mpr fun w => .spi (chipStep_set _ _ h.2)) fun _ => ?_
      exact (all_modify _).mpr fun w => .cache b
    case isFalse => exact all_pure ()

theorem all_selectBank (r : Byte) : All (Act A S) (selectBank r) := by
  unfold selectBank
  refine all_getDev.bind fun d => ?_
  split
  · exact all_bankChange _
  · exact all_pure ()

theorem all_spiSend {reg : Option Byte} {cmd : Byte} {out : List Byte}
    (h : ∀ c : Chip, ChipStep A c (c.command cmd out)) : All (Act A S) (spiSend reg cmd out) :=
  (all_modify _).mpr fun w => .spi (h w.chip)

theorem all_receiveReg (n : Nat) (r : Byte) : All (Act A S) (receiveReg n r) :=
  (all_selectBank r).bind fun _ => (all_act _).mpr fun _ => .spi (.poll _)

section Write

variable {r : Byte} (hr : A (regAddr r))
include hr

theorem all_writeReg (v : Byte) : All (Act A S) (writeReg r v) := by
  refine (all_selectBank r).bind fun _ => all_spiSend fun c => ?_
  rw [Chip.command_write]
  exact .write _ _ hr

theorem all_BitFieldSet (v : Byte) : All (Act A S) (BitFieldSet r v) := by
  refine (all_selectBank r).bind fun _ => all_spiSend fun c => ?_
  rw [Chip.command_set]
  exact .write _ _ hr

theorem all_BitFieldClear (v : Byte) : All (Act A S) (BitFieldClear r v) := by
  refine (all_selectBank r).bind fun _ => all_spiSend fun c => ?_
  rw [Chip.command_clear]
  exact .write _ _ hr

end Write

theorem all_writeReg16 {rl rh : Byte} (hl : A (regAddr rl)) (hh : A (regAddr rh))
    (v : BitVec 16) : All (Act A S) (writeReg16 rl rh v) :=
  (all_writeReg hl _).bind fun _ => all_writeReg hh _

/-! ## the driver's functions -/

theorem all_waitMii (fuel : Nat) : All (Act A S) (waitMii fuel) :=
  All.pollWhile ((all_receiveReg 2 _).bind fun _ => all_pure _) fuel

theorem all_waitClock (fuel : Nat) : All (Act A S) (waitClock fuel) :=
  All.pollWhile ((all_receiveReg 1 _).bind fun _ => all_pure _) fuel

theorem all_phyResult (hcmd : A 0x12) (fuel : Nat) : All (Act A S) (phyResult fuel) := by
  refine (all_delayMs 1).bind fun _ => ?_
  refine (all_waitMii fuel).bind fun _ => ?_
  refine (all_receiveReg 2 _).bind fun _ => ?_
  refine (all_writeReg hcmd _).bind fun _ => ?_
  refine (all_receiveReg 2 _).bind fun _ => ?_
  refine (all_receiveReg 2 _).bind fun _ => ?_
  exact all_pure _

/-- Reading the PHY writes MIREGADR and MICMD, wherever these land. -/
theorem all_readPhyReg (hA : ∀ a ∈ phyAddrs, A a) (fuel : Nat) (addr : Byte) :
    All (Act A S) (readPhyReg fuel addr) := by
  have hadr : A (regAddr bank2.MIREGADR) := hA _ (by decide)
  have hcmd : A (regAddr bank2.MICMD) := hA _ (by decide)
  refine (all_writeReg hadr _).bind fun _ => ?_
  refine (all_receiveReg 2 _).bind fun _ => ?_
  refine (all_writeReg hcmd _).bind fun _ => ?_
  exact all_phyResult hcmd fuel

theorem all_spiRead (hb : A 0x1A) {off : Nat} (hs : S off) (n : Nat) : All (Act A S) (spiRead off n) := by
  unfold spiRead
  rw [all_act]
  intro w
  split
  · exact .fetch off (.read n hb) hs
  · exact .idle

theorem all_checkPktLen (hs : S rxPktLen) : All (Act A S) checkPktLen := by
  unfold checkPktLen
  refine all_getDev.bind fun d => ?_
  split
  · exact (all_setU16 hs fun _ => 0).bind fun _ => all_pure _
  · exact all_pure _

/-- Reception writes ERDPT and ERXRDPT. -/
theorem all_etherReceive (hs : ∀ off < txPktLen, S off) (hA : ∀ a ∈ rxAddrs, A a) :
    All (Act A S) etherReceive := by
  have hb : A 0x1A := hA _ (by decide)
  unfold etherReceive
  refine all_getDev.bind fun d => ?_
  refine (all_writeReg16 (hA _ (by decide)) (hA _ (by decide)) _).bind fun _ => ?_
  refine All.bind ((all_modify _).mpr fun _ => .sel _) fun _ => ?_
  refine (all_spiRead hb (hs _ (by decide)) _).bind fun _ => ?_
  refine (all_setU16 (hs _ (by decide)) _).bind fun _ => ?_
  refine (all_spiRead hb (hs _ (by decide)) _).bind fun _ => ?_
  refine (all_setU16 (hs _ (by decide)) _).bind fun _ => ?_
  refine (all_checkPktLen (hs _ (by decide))).bind fun _ => ?_
  refine all_getDev.bind fun d => ?_
  refine (all_spiRead hb (hs _ (by decide)) _).bind fun _ => ?_
  refine All.bind ((all_modify _).mpr fun _ => .sel _) fun _ => ?_
  refine all_getDev.bind fun d => ?_
  refine (all_writeReg16 (hA _ (by decide)) (hA _ (by decide)) _).bind fun _ => ?_
  exact all_pure _

/-- Loading a frame writes EWRPT, ETXST, ETXND and buffer memory. -/
theorem all_loadFrame (hs : S txPktLen) (hA : ∀ a ∈ loadAddrs, A a) (off : Nat) (len : BitVec 16) :
    All (Act A S) (loadFrame off len) := by
  unfold loadFrame
  refine all_getDev.bind fun d => ?_
  refine (all_writeReg16 (hA _ (by decide)) (hA _ (by decide)) _).bind fun _ => ?_
  refine (all_writeReg16 (hA _ (by decide)) (hA _ (by decide)) _).bind fun _ => ?_
  refine (all_setU16 hs _).bind fun _ => ?_
  refine all_getDev.bind fun d => ?_
  refine (all_spiSend fun c => ?_).bind fun _ => ?_
  · rw [Chip.command_writeBuffer]
    exact .fill _ (hA _ (by decide))
  exact all_writeReg16 (hA _ (by decide)) (hA _ (by decide)) _

theorem all_etherTransmit (hs : S txPktLen) (hA : ∀ a ∈ txAddrs, A a) (off : Nat) (len : BitVec 16) :
    All (Act A S) (etherTransmit off len) := by
  have hload : ∀ a ∈ loadAddrs, A a := fun a ha => hA a (List.mem_append_left _ ha)
  unfold etherTransmit
  refine (all_loadFrame hs hload off len).bind fun _ => ?_
  refine (all_BitFieldClear (hA _ (by decide)) _).bind fun _ => ?_
  refine (all_BitFieldSet (hA _ (by decide)) _).bind fun _ => ?_
  refine (all_BitFieldSet (hA _ (by decide)) _).bind fun _ => ?_
  refine (all_BitFieldSet (hA _ (by decide)) _).bind fun _ => ?_
  exact all_pure true

/-- PKTIF is acknowledged by decrementing EPKTCNT, the other flags in EIR. -/
theorem all_clear_flag (h : A 0x1C) {flags : Byte} (hne : flags ≠ PKTIF) :
    All (Act A S) (clear_interrupt flags) := by
  unfold clear_interrupt
  rw [if_neg hne]
  exact All.ite (all_BitFieldClear h _) (all_pure ())

theorem all_clear_pktif (h : A 0x1E) : All (Act A S) (clear_interrupt PKTIF) :=
  all_BitFieldSet h _

theorem all_global_Int_Set (h : A 0x1B) : All (Act A S) global_Int_Set := all_BitFieldSet h _

theorem all_global_int_Clear (h : A 0x1B) : All (Act A S) global_int_Clear :=
  all_BitFieldClear h _

theorem all_link_change_int_clear (h : A 0x1B) : All (Act A S) link_change_int_clear :=
  all_BitFieldClear h _

/-! ## the main loop -/

/-- An action of `main.c` on its own globals, at a control point inside the loop. -/
inductive Local : World → World → Prop
  | goto {w : World} (at_ : Label) (h : ∀ v b, at_ ≠ .passEnd v b) : Local w { w with at_ }
  | serviced {w : World} (err : Bool) :
      Local w { w with at_ := .serviced err, served := w.served + 1 }
  | setTxBusy {w : World} (bTxBusy : Bool) : Local w { w with bTxBusy }
  | deliver {w : World} (delivered : List (List Byte)) : Local w { w with delivered }

/-- The copy loop stores in `txPkt`. -/
theorem all_copySegs_store (segs : List Seg) (offset : BitVec 16) :
    All (Act A (txPktLen ≤ ·)) (copySegs segs offset) := by
  induction segs generalizing offset with
  | nil => exact all_pure offset
  | cons q next ih =>
      refine All.bind ?_ fun _ => ih _
      exact all_store (Nat.le_add_right_of_le (by decide)) fun _ => q.payload

section Loop

variable {K : World → World → Prop} (hact : ∀ w w', Act (· ∈ txAddrs) (txPktLen ≤ ·) w w' → K w w')
  (hsend : ∀ w w', Local w w' → w'.delivered = w.delivered → K w w')
include hact

theorem all_gets_of_act {β : Type} (f : World → β) : All K (Res.gets f) :=
  (all_gets f).mpr fun w => hact w w .idle

theorem all_copySegs (segs : List Seg) (offset : BitVec 16) : All K (copySegs segs offset) :=
  (all_copySegs_store segs offset).mono hact

include hsend

theorem all_translateBody (p : Pbuf) : All K (translateBody p) := by
  unfold translateBody
  refine (all_gets_of_act hact _).bind fun busy => ?_
  split
  · refine (all_copySegs hact _ _).bind fun offset => ?_
    split
    · exact all_pure _
    · refine ((all_etherTransmit (Nat.le_refl _) (fun _ h => h) _ _).mono hact).bind fun _ => ?_
      refine All.bind ?_ fun _ => all_pure _
      exact (all_modify _).mpr fun w => hsend _ _ (.setTxBusy true) rfl
  · exact all_pure _

/-- Sending does nothing but what `K` allows. -/
theorem all_linkOutput : All K linkOutput := by
  refine (all_gets_of_act hact _).bind fun frames => ?_
  induction frames with
  | nil => exact all_pure ()
  | cons p next ih =>
      refine All.bind ?_ fun _ => ih
      refine All.bind ((all_modify _).mpr fun w => hsend _ _ (.goto _ nofun) rfl) fun _ => ?_
      refine (all_translateBody hact hsend p).bind fun _ => ?_
      exact All.bind ((all_modify _).mpr fun w => hsend _ _ (.goto _ nofun) rfl) fun _ => all_pure _

omit hsend in
theorem all_deliver (hlocal : ∀ w w', Local w w' → K w w') : All K deliver := by
  refine (all_gets_of_act hact _).bind fun ethBuffer => ?_
  cases ethBuffer with
  | none => exact all_pure ()
  | some lens =>
      refine (all_gets_of_act hact _).bind fun d => ?_
      refine All.bind ?_ fun _ => all_linkOutput hact fun w w' h _ => hlocal w w' h
      exact (all_modify _).mpr fun w => hlocal _ _ (.deliver _)

end Loop

/-! ## the flags of a snapshot -/

/-- The addresses each case of the pass writes, beside EIE. -/
def passAddrs : Nat → List (BitVec 5)
  | 0 | 1 | 3 | 5 => [0x1C]
  | 4 => phyAddrs ++ [0x1B]
  | 6 => rxAddrs ++ txAddrs ++ [0x1E]
  | _ => []

section Pass

variable {K : World → World → Prop} (hact : ∀ w w', Act A (fun _ => True) w w' → K w w')
  (hlocal : ∀ w w', Local w w' → K w w')
include hact hlocal

theorem all_servicePacket (hA : ∀ a ∈ passAddrs 6, A a) : All K servicePacket := by
  have hrx : ∀ a ∈ rxAddrs, A a := fun a ha => hA a (by simp [passAddrs, ha])
  have htx : ∀ a, a ∈ txAddrs → A a := fun a ha => hA a (by simp [passAddrs, ha])
  refine ((all_etherReceive (fun _ _ => trivial) hrx).mono hact).bind fun err => ?_
  refine ((all_clear_pktif (hA _ (by decide))).mono hact).bind fun _ => ?_
  refine All.bind ((all_modify _).mpr fun w => hlocal _ _ (.serviced _)) fun _ => ?_
  refine All.bind ((all_modify _).mpr fun w => hlocal _ _ (.goto _ nofun)) fun _ => ?_
  exact All.ite (all_deliver (fun w w' h => hact w w' (h.weaken htx)) hlocal) (all_pure ())

theorem all_serviceBit (fuel cnt : Nat) (hA : ∀ a ∈ passAddrs cnt, A a) :
    All K (serviceBit fuel cnt) := by
  unfold serviceBit
  split
  · exact (all_clear_flag (hA _ (by decide)) (by decide)).mono hact
  · exact (all_clear_flag (hA _ (by decide)) (by decide)).mono hact
  · exact all_pure ()
  · refine All.bind ((all_modify _).mpr fun w => hlocal _ _ (.goto _ nofun)) fun _ => ?_
    refine ((all_clear_flag (hA _ (by decide)) (by decide)).mono hact).bind fun _ => ?_
    refine All.bind ((all_modify _).mpr fun w => hlocal _ _ (.setTxBusy _)) fun _ => ?_
    exact (all_modify _).mpr fun w => hlocal _ _ (.goto _ nofun)
  · refine ((all_readPhyReg (fun a ha => hA a (List.mem_append_left _ ha)) fuel _).mono
      hact).bind fun _ => ?_
    exact (all_link_change_int_clear (hA _ (by decide))).mono hact
  · exact (all_clear_flag (hA _ (by decide)) (by decide)).mono hact
  · exact all_servicePacket hact hlocal hA
  · exact all_pure ()

theorem all_serviceFlag (fuel : Nat) (u8Value : Byte) (cnt : Nat) (hA : ∀ a ∈ passAddrs cnt, A a)
    (hie : A 0x1B) : All K (serviceFlag fuel u8Value cnt) := by
  unfold serviceFlag
  split
  · refine ((all_global_int_Clear hie).mono hact).bind fun _ => ?_
    refine (all_serviceBit hact hlocal fuel cnt hA).bind fun _ => ?_
    exact (all_global_Int_Set hie).mono hact
  · exact all_pure ()

end Pass

section Flags

variable {R : World → World → Prop} {G P Q : World → Prop} {fuel : Nat} {u8Value : Byte}

theorem triple_serviceFlags_of_forall (hP : Stable R G P) {flags : List Nat}
    (h : ∀ cnt ∈ flags, Triple R G P (serviceFlag fuel u8Value cnt) fun _ => P) :
    Triple R G P (serviceFlags fuel u8Value flags) fun _ => P := by
  induction flags with
  | nil => exact Triple.pure (Q := fun _ => P) hP
  | cons cnt next ih =>
      refine Triple.bind (h cnt List.mem_cons_self) fun _ => ?_
      exact ih fun c hc => h c (List.mem_cons_of_mem _ hc)

/-- The flags are served in order: `P` holds up to flag `k`, whose service turns
it into `Q`. -/
theorem triple_serviceFlags_at (hQ : Stable R G Q) {k : Nat} {flags : List Nat}
    (hpw : flags.Pairwise (· < ·)) (hk : k ∈ flags)
    (hbefore : ∀ cnt < k, Triple R G P (serviceFlag fuel u8Value cnt) fun _ => P)
    (hserve : Triple R G P (serviceFlag fuel u8Value k) fun _ => Q)
    (hafter : ∀ cnt, k < cnt → Triple R G Q (serviceFlag fuel u8Value cnt) fun _ => Q) :
    Triple R G P (serviceFlags fuel u8Value flags) fun _ => Q := by
  induction flags with
  | nil => cases hk
  | cons cnt next ih =>
      obtain ⟨hlt, hnext⟩ := List.pairwise_cons.mp hpw
      rcases List.mem_cons.mp hk with rfl | hk
      · refine Triple.bind hserve fun _ => ?_
        exact triple_serviceFlags_of_forall hQ fun c hc => hafter c (hlt c hc)
      · exact Triple.bind (hbefore cnt (hlt k hk)) fun _ => ih hnext hk

end Flags

/-! ## initialisation -/

section Init

variable (hA : ∀ a, a ≠ 0x1C → a ≠ 0x1F → A a)
include hA

theorem all_write_init {r : Byte} (hr : regAddr r ≠ 0x1C ∧ regAddr r ≠ 0x1F) (v : Byte) :
    All (Act A S) (writeReg r v) :=
  all_writeReg (hA _ hr.1 hr.2) v

theorem all_write16_init {rl rh : Byte} (hl : regAddr rl ≠ 0x1C ∧ regAddr rl ≠ 0x1F)
    (hh : regAddr rh ≠ 0x1C ∧ regAddr rh ≠ 0x1F) (v : BitVec 16) :
    All (Act A S) (writeReg16 rl rh v) :=
  all_writeReg16 (hA _ hl.1 hl.2) (hA _ hh.1 hh.2) v

theorem all_bufferInit : All (Act A S) bufferInit := by
  unfold bufferInit
  refine all_getDev.bind fun d => ?_
  refine (all_write16_init hA (by decide) (by decide) _).bind fun _ => ?_
  refine (all_write16_init hA (by decide) (by decide) _).bind fun _ => ?_
  refine (all_write16_init hA (by decide) (by decide) _).bind fun _ => ?_
  refine (all_write16_init hA (by decide) (by decide) _).bind fun _ => ?_
  refine (all_write16_init hA (by decide) (by decide) _).bind fun _ => ?_
  exact all_write16_init hA (by decide) (by decide) _

theorem all_writePhyReg (fuel : Nat) (addr : Byte) (v : BitVec 16) :
    All (Act A S) (writePhyReg fuel addr v) := by
  unfold writePhyReg
  refine (all_write_init hA (by decide) _).bind fun _ => ?_
  refine (all_write16_init hA (by decide) (by decide) _).bind fun _ => ?_
  exact (all_delayMs 1).bind fun _ => all_waitMii fuel

theorem all_phy_init (fuel : Nat) (addr : Byte) : All (Act A S) (readPhyReg fuel addr) := by
  have hne : ∀ a ∈ phyAddrs, a ≠ 0x1C ∧ a ≠ 0x1F := by decide
  exact all_readPhyReg (fun a ha => hA a (hne a ha).1 (hne a ha).2) fuel addr

theorem all_phyInit (fuel : Nat) : All (Act A S) (phyInit fuel) := by
  unfold phyInit
  refine (all_phy_init hA fuel _).bind fun _ => ?_
  refine (all_writePhyReg hA fuel _ _).bind fun _ => ?_
  refine (all_phy_init hA fuel _).bind fun _ => ?_
  exact all_writePhyReg hA fuel _ _

theorem all_macInit : All (Act A S) macInit := by
  unfold macInit
  refine (all_receiveReg 2 _).bind fun _ => ?_
  refine (all_write_init hA (by decide) _).bind fun _ => ?_
  refine (all_receiveReg 2 _).bind fun _ => ?_
  refine (all_write_init hA (by decide) _).bind fun _ => ?_
  refine (all_receiveReg 2 _).bind fun _ => ?_
  refine (all_write_init hA (by decide) _).bind fun _ => ?_
  refine all_getDev.bind fun d => ?_
  refine (all_write16_init hA (by decide) (by decide) _).bind fun _ => ?_
  refine (all_write_init hA (by decide) _).bind fun _ => ?_
  refine (all_write_init hA (by decide) _).bind fun _ => ?_
  refine (all_write_init hA (by decide) _).bind fun _ => ?_
  refine (all_write_init hA (by decide) _).bind fun _ => ?_
  refine (all_write_init hA (by decide) _).bind fun _ => ?_
  refine (all_write_init hA (by decide) _).bind fun _ => ?_
  refine (all_write_init hA (by decide) _).bind fun _ => ?_
  exact all_write_init hA (by decide) _

end Init

/-- `enc28j60_strtDr` stays inside a relation that holds of its actions on any
register but EIR and ECON1, of the soft reset and of setting RXEN. -/
theorem all_strtDr {K : World → World → Prop} (hK : ∀ w w', Act Plain (fun _ => False) w w' → K w w')
    (hreset : All K sftRst) (hrx : All K (BitFieldSet bank0.ECON1 (1 <<< 2))) (fuel : Nat) :
    All K (strtDr fuel) := by
  have hA : ∀ a, a ≠ 0x1C → a ≠ 0x1F → Plain a := fun _ h h' => ⟨h, h'⟩
  have hphy : ∀ addr, All K (readPhyReg fuel addr) := fun addr =>
    (all_phy_init hA fuel addr).mono hK
  unfold strtDr
  refine hreset.bind fun _ => ?_
  refine ((all_delayMs 1).mono hK).bind fun _ => ?_
  refine ((all_waitClock fuel).mono hK).bind fun _ => ?_
  refine ((hphy _).bind fun _ => all_pure _).bind fun _ => ?_
  refine ((hphy _).bind fun _ => all_pure _).bind fun _ => ?_
  refine ((hphy _).bind fun _ => (hphy _).bind fun _ => all_pure _).bind fun _ => ?_
  refine ((all_bufferInit hA).mono hK).bind fun _ => ?_
  refine ((all_phyInit hA fuel).mono hK).bind fun _ => ?_
  refine ((all_macInit hA).mono hK).bind fun _ => ?_
  refine ((all_write_init hA (by decide) _).mono hK).bind fun _ => ?_
  refine ((all_write_init hA (by decide) _).mono hK).bind fun _ => ?_
  refine ((all_BitFieldSet (hA _ (by decide) (by decide)) _).mono hK).bind fun _ => ?_
  exact hrx

end Enc28j60
