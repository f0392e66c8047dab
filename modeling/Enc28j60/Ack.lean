import Enc28j60.Access

/-!
# Enc28j60.Ack

What a service pass acknowledges.

A flag of the snapshot stays up until some transaction takes it down, so "up, or
cleared by a recorded transaction" (`Up`) holds from the snapshot on, through
every action; it turns into `Cleared` at the transaction that leaves the flag
down.  LINKIF is cleared by an MII read of PHIR, which starts in bank 2: it
reaches the PHY unless bank 2 is the cached bank, which the accesses of case 4
before it (bank 0) have left without the cache being told.
-/

namespace Enc28j60

open Res

/-! ## acknowledgements in the record -/

/-- Some recorded transaction took flag `k` of EIR down. -/
def Cleared (k : Nat) (log : List Entry) : Prop :=
  ∃ e ∈ log, e.pre.eir.getLsbD k = true ∧ e.post.eir.getLsbD k = false

/-- The number of recorded transactions that decremented EPKTCNT. -/
def decs (log : List Entry) : Nat :=
  (log.filter fun e => e.post.epktcnt + 1 == e.pre.epktcnt).length

/-- Every flag of the snapshot but WOLIF was acknowledged. -/
def Acked (u8Value : Byte) (log : List Entry) : Prop :=
  (∀ k ∈ [0, 1, 3, 4, 5], u8Value.getLsbD k = true → Cleared k log) ∧
    (u8Value.getLsbD 6 = true → decs log = 1)

/-- The guarantee: at the end of a pass everything was acknowledged, except
LINKIF if the pass was entered with bank 2 cached. -/
def AckGuard (w : World) : Prop :=
  ∀ v b, w.at_ = .passEnd v b → (Acked v w.log ↔ ¬(v.getLsbD 4 = true ∧ b = .bank_2))

/-- `P`, and control is not at the end of a pass. -/
def Inside (P : World → Prop) (w : World) : Prop := (∀ v b, w.at_ ≠ .passEnd v b) ∧ P w

theorem cleared_cons {k : Nat} {e : Entry} {log : List Entry} (h : Cleared k log) :
    Cleared k (e :: log) := by
  obtain ⟨e', hmem, he⟩ := h
  exact ⟨e', List.mem_cons_of_mem e hmem, he⟩

theorem cleared_cons_iff {k : Nat} {e : Entry} {log : List Entry} :
    Cleared k (e :: log) ↔
      (e.pre.eir.getLsbD k = true ∧ e.post.eir.getLsbD k = false) ∨ Cleared k log := by
  simp [Cleared]

/-! ## steps -/

/-- A step of the firmware as the record sees it. -/
structure Rec (w w' : World) : Prop where
  at_ : (∀ v b, w.at_ ≠ .passEnd v b) → ∀ v b, w'.at_ ≠ .passEnd v b
  log : (w'.log = w.log ∧ w'.chip = w.chip) ∨
    ∃ e : Entry, w'.log = e :: w.log ∧ e.pre = w.chip ∧ e.post = w'.chip

theorem rec_of_act {A : BitVec 5 → Prop} {S : Nat → Prop} {w w' : World} (h : Act A S w w') :
    Rec w w' := by
  cases h with
  | idle => exact ⟨id, .inl ⟨rfl, rfl⟩⟩
  | sel s => exact ⟨id, .inl ⟨rfl, rfl⟩⟩
  | cache b => exact ⟨id, .inl ⟨rfl, rfl⟩⟩
  | store off bs hs => exact ⟨id, .inl ⟨rfl, rfl⟩⟩
  | spi hc => exact ⟨id, .inr ⟨_, rfl, rfl, rfl⟩⟩
  | fetch off hc hs => exact ⟨id, .inr ⟨_, rfl, rfl, rfl⟩⟩

theorem rec_of_local {w w' : World} (h : Local w w') : Rec w w' := by
  cases h with
  | goto l hl => exact ⟨fun _ => hl, .inl ⟨rfl, rfl⟩⟩
  | serviced err => exact ⟨fun _ => nofun, .inl ⟨rfl, rfl⟩⟩
  | setTxBusy b => exact ⟨id, .inl ⟨rfl, rfl⟩⟩
  | deliver d => exact ⟨id, .inl ⟨rfl, rfl⟩⟩

/-- Flag `k` is up, or was cleared by a recorded transaction. -/
def Up (k : Nat) (w : World) : Prop := w.chip.eir.getLsbD k = true ∨ Cleared k w.log

theorem Rec.cleared {w w' : World} (h : Rec w w') {k : Nat} (hw : Cleared k w.log) :
    Cleared k w'.log := by
  rcases h.log with ⟨hlog, _⟩ | ⟨e, hlog, _, _⟩
  · rwa [hlog]
  · rw [hlog]
    exact cleared_cons hw

theorem Rec.up {w w' : World} (h : Rec w w') {k : Nat} (hw : Up k w) : Up k w' := by
  rcases hw with hup | hcl
  · rcases h.log with ⟨_, hchip⟩ | ⟨e, hlog, hpre, hpost⟩
    · left
      rwa [hchip]
    · cases hb : w'.chip.eir.getLsbD k with
      | true => exact .inl hb
      | false =>
          right
          rw [hlog]
          refine cleared_cons_iff.mpr (.inl ⟨?_, ?_⟩)
          · rwa [hpre]
          · rwa [hpost]
  · exact .inr (h.cleared hcl)

/-- A transaction that leaves the flag down has cleared it, or another has before. -/
theorem Rec.cleared_of_down {w w' : World} (h : Rec w w') {k : Nat} (hw : Up k w)
    (hdown : w'.chip.eir.getLsbD k = false) : Cleared k w'.log := by
  rcases h.up hw with hup | hcl
  · rw [hdown] at hup
    exact absurd hup Bool.false_ne_true
  · exact hcl

/-- The chip by itself only raises flags. -/
theorem eir_of_event {c c' : Chip} (h : Chip.Event c c') {k : Nat}
    (hk : c.eir.getLsbD k = true) : c'.eir.getLsbD k = true := by
  have hor : ∀ f : Byte, (c.eir ||| f).getLsbD k = true := fun f => by
    rw [BitVec.getLsbD_or, hk, Bool.true_or]
  cases h with
  | receive f hf => exact hk
  | txEnd err hrts => exact hor _
  | raise flag hflag => exact hor _
  | linkChange => exact hor _
  | phyStatus a v ha => exact hk

/-- An assertion about flags that are up, EPKTCNT and the record. -/
theorem inside_stable {P : World → Prop} (hP : ∀ w w', Env w w' → P w → P w') :
    Stable Env AckGuard (Inside P) where
  env w w' hr hw := by
    refine ⟨?_, hP w w' hr hw.2⟩
    cases hr <;> exact hw.1
  guard w hw v b hat := absurd hat (hw.1 v b)

theorem up_stable (k : Nat) : Stable Env AckGuard (Inside (Up k)) := by
  refine inside_stable fun w w' hr hw => ?_
  unfold Up
  rw [log_of_env hr]
  refine hw.imp_left fun hup => ?_
  cases hr with
  | chip hc => exact eir_of_event hc hup
  | handler he hc => exact hup
  | lwip offered pbufs => exact hup
  | hal b => exact hup

theorem cleared_stable (k : Nat) : Stable Env AckGuard (Inside fun w => Cleared k w.log) := by
  refine inside_stable fun w w' hr hw => ?_
  rwa [log_of_env hr]

/-- Everything the pass does is a `Rec` step. -/
theorem rec_of_all {α : Type} {A : BitVec 5 → Prop} {S : Nat → Prop} {p : Fw α}
    (h : All (Act A S) p) : All Rec p :=
  h.mono fun _ _ => rec_of_act

theorem rec_serviceFlag (fuel : Nat) (u8Value : Byte) (cnt : Nat) :
    All Rec (serviceFlag fuel u8Value cnt) :=
  all_serviceFlag (A := fun _ => True) (fun _ _ => rec_of_act) (fun _ _ => rec_of_local) fuel
    u8Value cnt (fun _ _ => trivial) trivial

theorem triple_up {α : Type} {p : Fw α} (h : All Rec p) (k : Nat) :
    Triple Env AckGuard (Inside (Up k)) p fun _ => Inside (Up k) :=
  Triple.frame (up_stable k) h fun _ _ hr hw => ⟨hr.at_ hw.1, hr.up hw.2⟩

theorem triple_cleared {α : Type} {p : Fw α} (h : All Rec p) (k : Nat) :
    Triple Env AckGuard (Inside fun w => Cleared k w.log) p
      fun _ => Inside fun w => Cleared k w.log :=
  Triple.frame (cleared_stable k) h fun _ _ hr hw => ⟨hr.at_ hw.1, hr.cleared hw.2⟩

/-! ## the flags acknowledged in EIR -/

/-- The flag that case `k` of the pass clears in EIR. -/
def eirFlag (k : Nat) : Byte := 1 <<< k

theorem eir_clear (c : Chip) (flags : Byte) :
    (c.command (opcode.u8BitFieldClear ||| (0x1F &&& bank0.EIR)) [flags]).eir =
      ((c.eir &&& ~~~flags) &&& 0x2F) ||| (c.eir &&& 0x10) := by
  have hr : regAddr bank0.EIR = 0x1C := by decide
  rw [Chip.command_clear, hr]
  rfl

/-- A bit field clear acknowledges RXERIF, TXERIF, TXIF or DMAIF. -/
theorem triple_clear_interrupt {k : Nat} (hk : k ∈ [0, 1, 3, 5]) :
    Triple Env AckGuard (Inside (Up k)) (clear_interrupt (eirFlag k))
      fun _ => Inside fun w => Cleared k w.log := by
  have hflag : (eirFlag k).toNat ≤ 64 ∧ eirFlag k ≠ PKTIF := by
    revert k
    decide
  have hdown : ∀ v : Byte,
      (((v &&& ~~~(eirFlag k)) &&& 0x2F) ||| (v &&& 0x10)).getLsbD k = false := by
    revert k
    decide
  unfold clear_interrupt
  rw [if_pos hflag.1, if_neg hflag.2]
  refine Triple.bind (triple_up (rec_of_all (S := fun _ => False)
    (all_selectBank (A := fun _ => False) _)) k) fun _ => ?_
  refine Triple.modify (up_stable k) (fun _ => cleared_stable k) fun w hw => ?_
  have hrec : Rec w (w.transact (some bank0.EIR)
      (opcode.u8BitFieldClear ||| (0x1F &&& bank0.EIR)) [eirFlag k] []
      (w.chip.command (opcode.u8BitFieldClear ||| (0x1F &&& bank0.EIR)) [eirFlag k])) :=
    ⟨id, .inr ⟨_, rfl, rfl, rfl⟩⟩
  refine ⟨hw.1, hrec.cleared_of_down hw.2 ?_⟩
  show (w.chip.command _ _).eir.getLsbD k = false
  rw [eir_clear]
  exact hdown w.chip.eir

/-- Serving a flag goes through INTIE on either side. -/
theorem triple_serviceFlag_of {fuel cnt : Nat} {u8Value : Byte} {P Q : World → Prop}
    (hset : u8Value.getLsbD cnt = true)
    (hclear : Triple Env AckGuard P global_int_Clear fun _ => P)
    (hbit : Triple Env AckGuard P (serviceBit fuel cnt) fun _ => Q)
    (hend : Triple Env AckGuard Q global_Int_Set fun _ => Q) :
    Triple Env AckGuard P (serviceFlag fuel u8Value cnt) fun _ => Q := by
  unfold serviceFlag
  rw [if_pos hset]
  exact Triple.bind hclear fun _ => Triple.bind hbit fun _ => hend

theorem rec_global_int_Clear : All Rec global_int_Clear :=
  rec_of_all (S := fun _ => False) (all_global_int_Clear (A := fun _ => True) trivial)

theorem rec_global_Int_Set : All Rec global_Int_Set :=
  rec_of_all (S := fun _ => False) (all_global_Int_Set (A := fun _ => True) trivial)

theorem rec_goto {l : Label} (h : ∀ v b, l ≠ .passEnd v b) : All Rec (goto l) :=
  (all_modify _).mpr fun _ => rec_of_local (.goto l h)

theorem rec_setTxBusy (b : Bool) : All Rec (setTxBusy b) :=
  (all_modify _).mpr fun _ => rec_of_local (.setTxBusy b)

theorem triple_ackBit (fuel : Nat) {k : Nat} (hk : k ∈ [0, 1, 3, 5]) :
    Triple Env AckGuard (Inside (Up k)) (serviceBit fuel k)
      fun _ => Inside fun w => Cleared k w.log := by
  have hclear := triple_clear_interrupt hk
  simp only [List.mem_cons, List.not_mem_nil, or_false] at hk
  rcases hk with rfl | rfl | rfl | rfl
  · exact hclear
  · exact hclear
  · refine Triple.bind (triple_up (rec_goto (l := .txAck) nofun) 3) fun _ => ?_
    refine Triple.bind hclear fun _ => ?_
    refine Triple.bind (triple_cleared (rec_setTxBusy false) 3) fun _ => ?_
    exact triple_cleared (rec_goto (l := .loop) nofun) 3
  · exact hclear

/-- Each of the flags that EIR acknowledges is cleared by the pass. -/
theorem triple_ackFlags (fuel : Nat) {u8Value : Byte} {k : Nat} (hk : k ∈ [0, 1, 3, 5])
    (hset : u8Value.getLsbD k = true) :
    Triple Env AckGuard (Inside (Up k)) (serviceFlags fuel u8Value (List.range 8))
      fun _ => Inside fun w => Cleared k w.log := by
  have hmem : k ∈ List.range 8 := (by decide : ∀ k ∈ [0, 1, 3, 5], k ∈ List.range 8) k hk
  refine triple_serviceFlags_at (cleared_stable k) List.pairwise_lt_range hmem ?_ ?_ ?_
  · exact fun cnt _ => triple_up (rec_serviceFlag fuel u8Value cnt) k
  · exact triple_serviceFlag_of hset (triple_up rec_global_int_Clear k) (triple_ackBit fuel hk)
      (triple_cleared rec_global_Int_Set k)
  · exact fun cnt _ => triple_cleared (rec_serviceFlag fuel u8Value cnt) k

/-! ## the packet counter -/

namespace Chip

theorem epktcnt_readBuffer (n : Nat) (c : Chip) : (readBuffer n c).2.epktcnt = c.epktcnt := by
  obtain ⟨_, h⟩ := readBuffer_eq n c
  rw [h]

theorem epktcnt_writeBuffer (vs : List Byte) (c : Chip) :
    (writeBuffer vs c).epktcnt = c.epktcnt := by
  obtain ⟨_, _, h⟩ := writeBuffer_eq vs c
  rw [h]

theorem epktcnt_miiRead (c : Chip) : c.miiRead.epktcnt = c.epktcnt := by
  unfold miiRead
  split <;> rfl

theorem epktcnt_writeReg {c : Chip} {a : BitVec 5} (v : Byte) (h : a ≠ 0x1E) :
    (c.writeReg a v).epktcnt = c.epktcnt := by
  have hbanked : (c.writeBanked c.bsel a v).epktcnt = c.epktcnt :=
    writeBanked_rule (P := fun c' => c'.epktcnt = c.epktcnt) (fun _ _ _ => rfl)
      (fun _ _ c' h => (epktcnt_miiRead c').trans h) fun _ _ h => h
  unfold writeReg
  rw [if_neg h]
  repeat' split
  all_goals first
    | rfl
    | exact hbanked

end Chip

theorem epktcnt_of_chipStep {c c' : Chip} (h : ChipStep (· ≠ 0x1E) c c') :
    c'.epktcnt = c.epktcnt := by
  cases h with
  | bank v hv => rfl
  | write a v ha => exact Chip.epktcnt_writeReg v ha
  | poll a =>
      unfold Chip.poll
      repeat' split
      all_goals rfl
  | read n _ => exact Chip.epktcnt_readBuffer n c
  | fill vs _ => exact Chip.epktcnt_writeBuffer vs c

/-- A step that leaves EPKTCNT alone. -/
structure CntSame (w w' : World) : Prop extends Rec w w' where
  epktcnt : w'.chip.epktcnt = w.chip.epktcnt

theorem cntSame_of_act {S : Nat → Prop} {w w' : World} (h : Act (· ≠ 0x1E) S w w') : CntSame w w' := by
  refine ⟨rec_of_act h, ?_⟩
  cases h with
  | spi hc => exact epktcnt_of_chipStep hc
  | fetch off hc hs => exact epktcnt_of_chipStep hc
  | idle => rfl
  | sel s => rfl
  | cache b => rfl
  | store off bs hs => rfl

theorem cntSame_of_local {w w' : World} (h : Local w w') : CntSame w w' := by
  refine ⟨rec_of_local h, ?_⟩
  cases h <;> rfl

theorem CntSame.decs {w w' : World} (h : CntSame w w') : decs w'.log = decs w.log := by
  rcases h.log with ⟨hlog, _⟩ | ⟨e, hlog, hpre, hpost⟩
  · rw [hlog]
  · have hne : (e.post.epktcnt + 1 == e.pre.epktcnt) = false := by
      rw [hpre, hpost, h.epktcnt]
      have hsucc : ∀ v : Byte, (v + 1 == v) = false := by decide
      exact hsucc _
    rw [hlog]
    unfold Enc28j60.decs
    rw [List.filter_cons_of_neg (by simpa using hne)]

/-- No decrement yet, and a packet is pending. -/
def Waiting (w : World) : Prop := decs w.log = 0 ∧ w.chip.epktcnt ≠ 0

theorem epktcnt_of_event {c c' : Chip} (h : Chip.Event c c') (hne : c.epktcnt ≠ 0) :
    c'.epktcnt ≠ 0 := by
  cases h with
  | receive f hf =>
      have hsucc : ∀ v : Byte, v ≠ 255 → v + 1 ≠ 0 := by decide
      exact hsucc _ hf.2.1
  | txEnd err hrts => exact hne
  | raise flag hflag => exact hne
  | linkChange => exact hne
  | phyStatus a v ha => exact hne

theorem waiting_stable : Stable Env AckGuard (Inside Waiting) := by
  refine inside_stable fun w w' hr hw => ⟨?_, ?_⟩
  · rw [log_of_env hr]
    exact hw.1
  · cases hr with
    | chip hc => exact epktcnt_of_event hc hw.2
    | handler he hc => exact hw.2
    | lwip offered pbufs => exact hw.2
    | hal b => exact hw.2

theorem counted_stable : Stable Env AckGuard (Inside fun w => decs w.log = 1) := by
  refine inside_stable fun w w' hr hw => ?_
  rwa [log_of_env hr]

theorem triple_waiting {α : Type} {p : Fw α} (h : All CntSame p) :
    Triple Env AckGuard (Inside Waiting) p fun _ => Inside Waiting := by
  refine Triple.frame waiting_stable h fun w w' hr hw => ⟨hr.at_ hw.1, ?_, ?_⟩
  · exact hr.decs.trans hw.2.1
  · rw [hr.epktcnt]
    exact hw.2.2

theorem triple_counted {α : Type} {p : Fw α} (h : All CntSame p) :
    Triple Env AckGuard (Inside fun w => decs w.log = 1) p
      fun _ => Inside fun w => decs w.log = 1 :=
  Triple.frame counted_stable h fun _ _ hr hw => ⟨hr.at_ hw.1, hr.decs.trans hw.2⟩

theorem cntSame_serviceFlag (fuel : Nat) (u8Value : Byte) {cnt : Nat} (h : cnt ≠ 6) :
    All CntSame (serviceFlag fuel u8Value cnt) := by
  refine all_serviceFlag (fun _ _ => cntSame_of_act) (fun _ _ => cntSame_of_local) fuel u8Value cnt
    ?_ (by decide)
  match cnt, h with
  | 0, _ | 1, _ | 2, _ | 3, _ | 4, _ | 5, _ => decide
  | n + 7, _ => exact nofun

/-- ECON2.PKTDEC acknowledges one packet. -/
theorem triple_clear_pktif :
    Triple Env AckGuard (Inside Waiting) (clear_interrupt PKTIF)
      fun _ => Inside fun w => decs w.log = 1 := by
  refine Triple.bind (triple_waiting ((all_selectBank (A := (· ≠ 0x1E)) (S := fun _ => False) _).mono
    fun _ _ => cntSame_of_act)) fun _ => ?_
  refine Triple.modify waiting_stable (fun _ => counted_stable) fun w hw => ⟨hw.1, ?_⟩
  obtain ⟨hdecs, hne⟩ := hw.2
  have hdec : (w.chip.command (opcode.u8BitFieldSet ||| (0x1F &&& bank0.ECON2))
      [1 <<< 6]).epktcnt + 1 = w.chip.epktcnt := by
    rw [Chip.command_pktDec]
    show (if w.chip.epktcnt = 0 then 0 else w.chip.epktcnt - 1) + 1 = w.chip.epktcnt
    rw [if_neg hne, BitVec.sub_add_cancel]
  show decs (_ :: w.log) = 1
  unfold decs at hdecs ⊢
  rw [List.filter_cons_of_pos (by simpa using hdec), List.length_cons, hdecs]

/-- A pending packet is acknowledged exactly once by the pass. -/
theorem triple_countFlags (fuel : Nat) {u8Value : Byte} (hset : u8Value.getLsbD 6 = true) :
    Triple Env AckGuard (Inside Waiting) (serviceFlags fuel u8Value (List.range 8))
      fun _ => Inside fun w => decs w.log = 1 := by
  have hact : ∀ {S : Nat → Prop} w w', Act (· ≠ 0x1E) S w w' → CntSame w w' := fun _ _ => cntSame_of_act
  refine triple_serviceFlags_at counted_stable List.pairwise_lt_range (k := 6) (by decide) ?_ ?_ ?_
  · exact fun cnt hlt => triple_waiting (cntSame_serviceFlag fuel u8Value (by omega))
  · refine triple_serviceFlag_of hset ?_ ?_ ?_
    · exact triple_waiting ((all_global_int_Clear (S := fun _ => False) (by decide)).mono hact)
    · refine Triple.bind (triple_waiting ((all_etherReceive (S := fun _ => True) (fun _ _ => trivial) (by decide)).mono hact))
        fun err => ?_
      refine Triple.bind triple_clear_pktif fun _ => ?_
      refine Triple.bind (triple_counted ((all_modify _).mpr fun _ => cntSame_of_local
        (.serviced _))) fun _ => ?_
      refine Triple.bind (triple_counted ((all_modify _).mpr fun _ => cntSame_of_local
        (.goto _ nofun))) fun _ => ?_
      have htx : ∀ a ∈ txAddrs, a ≠ 0x1E := by decide
      exact triple_counted (All.ite (all_deliver (fun w w' h => hact w w' (h.weaken htx))
        fun _ _ => cntSame_of_local) (all_pure ()))
    · exact triple_counted ((all_global_Int_Set (S := fun _ => False) (by decide)).mono hact)
  · exact fun cnt hlt => triple_counted (cntSame_serviceFlag fuel u8Value (by omega))

/-! ## the link flag -/

namespace Chip

theorem linkif_miiRead (c : Chip) (h : c.miregadr = PHIR) :
    c.miiRead.eir.getLsbD 4 = false := by
  have hmask : ∀ v : Byte, (v &&& 0xEF).getLsbD 4 = false := by decide
  unfold miiRead
  rw [if_pos h]
  exact hmask c.eir

/-- LINKIF is read-only, and only a write of MICMD can start an MII read. -/
theorem linkif_writeReg {c : Chip} {a : BitVec 5} (v : Byte)
    (h : a = 0x12 → c.bsel = 2 → v.getLsbD 0 = false) :
    (c.writeReg a v).eir.getLsbD 4 = c.eir.getLsbD 4 := by
  have hmask : ∀ u e : Byte, ((u &&& 0x2F) ||| (e &&& 0x10)).getLsbD 4 = e.getLsbD 4 := by
    intro u e
    simp
  have hbanked : (c.writeBanked c.bsel a v).eir = c.eir := by
    refine writeBanked_rule (P := fun c' => c'.eir = c.eir) (fun _ _ _ => rfl)
      (fun hcmd hstart => ?_) fun _ _ h => h
    exact Bool.noConfusion (hstart.symm.trans (h hcmd.2 hcmd.1))
  unfold writeReg
  split
  · rfl
  split
  · exact hmask v c.eir
  split
  · rfl
  split
  · split <;> rfl
  split
  · rfl
  · rw [hbanked]

theorem miregadr_writeReg {c : Chip} (h : c.bsel = 2) (v : Byte) :
    (c.writeReg 0x14 v).miregadr = v.setWidth 5 := by
  unfold writeReg
  rw [h]
  simp [writeBanked, miregadr, setReg]

/-- Setting MICMD.MIIRD reads the selected PHY register. -/
theorem writeReg_micmd {c : Chip} (h : c.bsel = 2) {v : Byte} (hv : v.getLsbD 0 = true) :
    c.writeReg 0x12 v = (c.setReg 2 0x12 v).miiRead := by
  have hv' : v[0] = true := hv
  unfold writeReg
  rw [h]
  simp [writeBanked, hv']

end Chip

theorem linkif_of_chipStep {c c' : Chip} (h : ChipStep (· ≠ 0x12) c c') :
    c'.eir.getLsbD 4 = c.eir.getLsbD 4 := by
  cases h with
  | bank v hv => rfl
  | write a v ha => exact Chip.linkif_writeReg v fun heq => absurd heq ha
  | poll a =>
      unfold Chip.poll
      repeat' split
      all_goals rfl
  | read n _ => rw [Chip.eir_readBuffer]
  | fill vs _ => rw [Chip.eir_writeBuffer]

/-- A step that leaves LINKIF alone. -/
structure LinkSame (w w' : World) : Prop extends Rec w w' where
  linkif : w'.chip.eir.getLsbD 4 = w.chip.eir.getLsbD 4

theorem linkSame_of_act {S : Nat → Prop} {w w' : World} (h : Act (· ≠ 0x12) S w w') :
    LinkSame w w' := by
  refine ⟨rec_of_act h, ?_⟩
  cases h with
  | spi hc => exact linkif_of_chipStep hc
  | fetch off hc hs => exact linkif_of_chipStep hc
  | idle => rfl
  | sel s => rfl
  | cache b => rfl
  | store off bs hs => rfl

theorem linkSame_of_local {w w' : World} (h : Local w w') : LinkSame w w' := by
  refine ⟨rec_of_local h, ?_⟩
  cases h <;> rfl

/-- LINKIF is up and was not cleared. -/
def LinkUp (w : World) : Prop := w.chip.eir.getLsbD 4 = true ∧ ¬Cleared 4 w.log

theorem LinkSame.linkUp {w w' : World} (h : LinkSame w w') (hw : LinkUp w) : LinkUp w' := by
  refine ⟨h.linkif.trans hw.1, ?_⟩
  rcases h.log with ⟨hlog, _⟩ | ⟨e, hlog, _, hpost⟩
  · rw [hlog]
    exact hw.2
  · rw [hlog, cleared_cons_iff, hpost, h.linkif, hw.1]
    simpa using hw.2

theorem linkUp_stable : Stable Env AckGuard (Inside LinkUp) := by
  refine inside_stable fun w w' hr hw => ⟨?_, ?_⟩
  · cases hr with
    | chip hc => exact eir_of_event hc hw.1
    | handler he hc => exact hw.1
    | lwip offered pbufs => exact hw.1
    | hal b => exact hw.1
  · rw [log_of_env hr]
    exact hw.2

theorem triple_linkUp {α : Type} {p : Fw α} (h : All LinkSame p) :
    Triple Env AckGuard (Inside LinkUp) p fun _ => Inside LinkUp :=
  Triple.frame linkUp_stable h fun _ _ hr hw => ⟨hr.at_ hw.1, hr.linkUp hw.2⟩

theorem linkSame_serviceFlag (fuel : Nat) (u8Value : Byte) {cnt : Nat} (h : cnt ≠ 4) :
    All LinkSame (serviceFlag fuel u8Value cnt) := by
  refine all_serviceFlag (fun _ _ => linkSame_of_act) (fun _ _ => linkSame_of_local) fuel u8Value
    cnt ?_ (by decide)
  match cnt, h with
  | 0, _ | 1, _ | 2, _ | 3, _ | 5, _ | 6, _ => decide
  | n + 7, _ => exact nofun

/-- What `enc28j60_readPhyReg` does after starting the read does not start another. -/
theorem linkSame_phyResult (fuel : Nat) : All LinkSame (phyResult fuel) := by
  have hact : ∀ w w', Act (· ≠ 0x12) (fun _ => False) w w' → LinkSame w w' := fun _ _ => linkSame_of_act
  have hr : regAddr bank2.MICMD = 0x12 := by decide
  have hbit : ∀ v : Byte, (v &&& ~~~0x01).getLsbD 0 = false := by decide
  refine ((all_delayMs 1).mono hact).bind fun _ => ?_
  refine ((all_waitMii fuel).mono hact).bind fun _ => ?_
  refine ((all_receiveReg 2 _).mono hact).bind fun v => ?_
  refine All.bind ?_ fun _ => ?_
  · refine ((all_selectBank _).mono hact).bind fun _ => (all_modify _).mpr fun w => ?_
    refine ⟨⟨id, .inr ⟨_, rfl, rfl, rfl⟩⟩, ?_⟩
    show (w.chip.command _ _).eir.getLsbD 4 = _
    rw [Chip.command_write, hr]
    exact Chip.linkif_writeReg _ fun _ _ => hbit v
  · refine ((all_receiveReg 2 _).mono hact).bind fun _ => ?_
    exact ((all_receiveReg 2 _).mono hact).bind fun _ => all_pure _

/-! ### bank 2 cached: the read does not reach the PHY -/

/-- The history while bank 2 is cached and was left for bank 0. -/
theorem sel_of_stale {t : Trail} (h : t.last = .bank_2) :
    (((t.leave.access bank2.MIREGADR).access bank2.MICMD).enter bank2.MICMD).sel = 0 := by
  obtain ⟨last, left, routed⟩ := t
  cases h
  cases left <;> cases routed <;> decide

theorem triple_linkLost (fuel : Nat) {u8Value : Byte} (hset : u8Value.getLsbD 4 = true)
    {t : Trail} (ht : t.last = .bank_2) :
    Triple Env AckGuard (fun w => Inside LinkUp w ∧ At t w) (serviceFlag fuel u8Value 4)
      fun _ => Inside LinkUp := by
  have hR : ∀ w w', Env w w' → BankEnv w w' := fun _ _ => bankEnv_of_env
  have hact : ∀ w w', Act (· ≠ 0x12) (fun _ => False) w w' → LinkSame w w' := fun _ _ => linkSame_of_act
  have hblind : Blind (Inside LinkUp) := fun w w' hw hin => by
    have hsame : LinkSame w w' := linkSame_of_act (hw.mono (B := (· ≠ 0x12)) fun _ h => h.elim)
    exact ⟨hsame.at_ hin.1, hsame.linkUp hin.2⟩
  have hread : Triple Env AckGuard (fun w => Inside LinkUp w ∧ At t.leave w)
      (readPhyReg fuel phyReg.PHIR) fun _ => Inside LinkUp := by
    refine Triple.bind ((Keeps.writeReg _ (by decide)).with hR
      (triple_linkUp ((all_writeReg (by decide) _).mono hact))) fun _ => ?_
    refine Triple.bind ((Keeps.readMacMIIReg _).with hR
      (triple_linkUp ((all_receiveReg 2 _).mono hact))) fun v => ?_
    refine Triple.bind (triple_sendReg hR linkUp_stable hblind linkUp_stable (fun chip => ?_)
      fun w hw hsel => ?_) fun _ => ?_
    · rw [Chip.command_write]
      exact Chip.bsel_writeReg _ (by decide)
    · rw [sel_of_stale ht] at hsel
      have hsame : LinkSame w (w.transact (some bank2.MICMD)
          (opcode.u8writeControlRegister ||| (0x1F &&& bank2.MICMD)) [v ||| 0x01] []
          (w.chip.command (opcode.u8writeControlRegister ||| (0x1F &&& bank2.MICMD))
            [v ||| 0x01])) := by
        refine ⟨⟨id, .inr ⟨_, rfl, rfl, rfl⟩⟩, ?_⟩
        show (w.chip.command _ _).eir.getLsbD 4 = _
        rw [Chip.command_write]
        refine Chip.linkif_writeReg _ fun _ hb => ?_
        rw [hsel] at hb
        exact absurd hb (by decide)
      exact ⟨hsame.at_ hw.1, hsame.linkUp hw.2⟩
    · exact Triple.conseq (triple_linkUp (linkSame_phyResult fuel)) (fun _ hw => hw.1)
        fun _ _ hw => hw
  unfold serviceFlag
  rw [if_pos hset]
  refine Triple.bind ((Keeps.BitFieldClear_bank0 rfl _ (by decide)).with hR
    (triple_linkUp ((all_global_int_Clear (by decide)).mono hact))) fun _ => ?_
  refine Triple.bind (M := fun _ => Inside LinkUp) ?_ fun _ => ?_
  · refine Triple.bind hread fun _ => ?_
    exact triple_linkUp ((all_link_change_int_clear (by decide)).mono hact)
  · exact triple_linkUp ((all_global_Int_Set (by decide)).mono hact)

/-! ### another bank cached: the read acknowledges the link change -/

/-- Up, and PHIR is the register the next MII read will load. -/
def PhirSelected (w : World) : Prop := Up 4 w ∧ w.chip.miregadr = Chip.PHIR

theorem phirSelected_stable : Stable Env AckGuard (Inside PhirSelected) where
  env w w' hr hw := by
    have hup := (up_stable 4).env w w' hr ⟨hw.1, hw.2.1⟩
    refine ⟨hup.1, hup.2, ?_⟩
    unfold Chip.miregadr
    rw [regs_of_env hr]
    exact hw.2.2
  guard w hw v b hat := absurd hat (hw.1 v b)

theorem blind_up (k : Nat) : Blind (Inside (Up k)) := fun _ _ h hin =>
  ⟨(rec_of_act h).at_ hin.1, (rec_of_act h).up hin.2⟩

theorem blind_phirSelected : Blind (Inside PhirSelected) := fun w w' h hin => by
  refine ⟨(rec_of_act h).at_ hin.1, (rec_of_act h).up hin.2.1, ?_⟩
  unfold Chip.miregadr
  rw [regs_of_blind h]
  exact hin.2.2

theorem sel_of_fresh {t : Trail} (h : t.last ≠ .bank_2) :
    (t.enter bank2.MIREGADR).sel = 2 ∧
      (((t.access bank2.MIREGADR).access bank2.MICMD).enter bank2.MICMD).sel = 2 := by
  obtain ⟨last, left, routed⟩ := t
  cases last <;> first
    | exact absurd rfl h
    | cases left <;> cases routed <;> decide

theorem triple_linkRead (fuel : Nat) {t : Trail} (ht : t.last ≠ .bank_2) :
    Triple Env AckGuard (fun w => Inside (Up 4) w ∧ At t w) (readPhyReg fuel phyReg.PHIR)
      fun _ => Inside fun w => Cleared 4 w.log := by
  have hR : ∀ w w', Env w w' → BankEnv w w' := fun _ _ => bankEnv_of_env
  obtain ⟨hsel₁, hsel₂⟩ := sel_of_fresh ht
  refine Triple.bind (triple_sendReg hR (up_stable 4) (blind_up 4) phirSelected_stable
    (fun chip => ?_) fun w hw hsel => ?_) fun _ => ?_
  · rw [Chip.command_write]
    exact Chip.bsel_writeReg _ (by decide)
  · rw [hsel₁] at hsel
    have hrec : Rec w (w.transact (some bank2.MIREGADR)
        (opcode.u8writeControlRegister ||| (0x1F &&& bank2.MIREGADR)) [phyReg.PHIR] []
        (w.chip.command (opcode.u8writeControlRegister ||| (0x1F &&& bank2.MIREGADR))
          [phyReg.PHIR])) := ⟨id, .inr ⟨_, rfl, rfl, rfl⟩⟩
    refine ⟨hw.1, hrec.up hw.2, ?_⟩
    show (w.chip.command _ _).miregadr = Chip.PHIR
    rw [Chip.command_write, show regAddr bank2.MIREGADR = 0x14 from by decide,
      Chip.miregadr_writeReg hsel]
    decide
  refine Triple.bind ((Keeps.readMacMIIReg _).with hR (Triple.frame phirSelected_stable
    (all_receiveReg 2 _) blind_phirSelected)) fun v => ?_
  refine Triple.bind (triple_sendReg hR phirSelected_stable blind_phirSelected (cleared_stable 4)
    (fun chip => ?_) fun w hw hsel => ?_) fun _ => ?_
  · rw [Chip.command_write]
    exact Chip.bsel_writeReg _ (by decide)
  · rw [hsel₂] at hsel
    have hrec : Rec w (w.transact (some bank2.MICMD)
        (opcode.u8writeControlRegister ||| (0x1F &&& bank2.MICMD)) [v ||| 0x01] []
        (w.chip.command (opcode.u8writeControlRegister ||| (0x1F &&& bank2.MICMD))
          [v ||| 0x01])) := ⟨id, .inr ⟨_, rfl, rfl, rfl⟩⟩
    refine ⟨hw.1, hrec.cleared_of_down hw.2.1 ?_⟩
    show (w.chip.command _ _).eir.getLsbD 4 = false
    have hbit : ∀ v : Byte, (v ||| 0x01).getLsbD 0 = true := by decide
    rw [Chip.command_write, show regAddr bank2.MICMD = 0x12 from by decide,
      Chip.writeReg_micmd hsel (hbit v)]
    refine Chip.linkif_miiRead _ ?_
    rw [← hw.2.2]
    rfl
  · refine Triple.conseq (triple_cleared (rec_of_all (S := fun _ => False) (all_phyResult
      (A := fun _ => True) trivial fuel)) 4) (fun _ hw => hw.1) fun _ _ hw => hw

/-! ## one pass -/

/-- The cached bank, beside an assertion about the record. -/
theorem triple_beside {α : Type} {P Q : World → Prop} {L L' : Bank → Prop} {p : Fw α}
    (h : Triple Env AckGuard P p fun _ => Q)
    (hbank : Triple BankEnv (Goal False) (Cached L) p fun _ => Cached L') :
    Triple Env AckGuard (fun w => P w ∧ Cached L w) p fun _ w => Q w ∧ Cached L' w :=
  Triple.and (fun _ _ => bankEnv_of_env) h hbank

theorem beside_stable {P : World → Prop} {L : Bank → Prop} (h : Stable Env AckGuard P) :
    Stable Env AckGuard fun w => P w ∧ Cached L w where
  env w w' hr hw := ⟨h.env w w' hr hw.1, cached_stable.env w w' (bankEnv_of_env hr) hw.2⟩
  guard w hw := h.guard w hw.1

/-- A link change is acknowledged if bank 2 is not the cached bank. -/
theorem triple_linkFlags_of_ne (fuel : Nat) {u8Value : Byte} {b : Bank}
    (hset : u8Value.getLsbD 4 = true) (hb : b ≠ .bank_2) :
    Triple Env AckGuard (fun w => Inside (Up 4) w ∧ Cached (· = b) w)
      (serviceFlags fuel u8Value (List.range 8)) fun _ => Inside fun w => Cleared 4 w.log := by
  have hserve : ∀ t : Trail, t.last = b →
      Triple Env AckGuard (fun w => Inside (Up 4) w ∧ At t w) (serviceFlag fuel u8Value 4)
        fun _ => Inside fun w => Cleared 4 w.log := by
    intro t ht
    have hlast : t.leave.last ≠ .bank_2 := fun h => hb (ht.symm.trans h)
    unfold serviceFlag
    rw [if_pos hset]
    refine Triple.bind ((Keeps.BitFieldClear_bank0 rfl _ (by decide)).with
      (fun _ _ => bankEnv_of_env) (triple_up rec_global_int_Clear 4)) fun _ => ?_
    refine Triple.bind (M := fun _ => Inside fun w => Cleared 4 w.log) ?_ fun _ => ?_
    · refine Triple.bind (triple_linkRead fuel hlast) fun _ => ?_
      exact triple_cleared (rec_of_all (S := fun _ => False)
        (all_link_change_int_clear (A := fun _ => True) trivial)) 4
    · exact triple_cleared rec_global_Int_Set 4
  refine triple_serviceFlags_at (cleared_stable 4) List.pairwise_lt_range (k := 4) (by decide)
    ?_ ?_ ?_
  · intro cnt hlt
    exact triple_beside (triple_up (rec_serviceFlag fuel u8Value cnt) 4)
      (KeepsBank.serviceFlag fun h => absurd h (by omega))
  · intro w hw
    obtain ⟨hup, t, ht, hlast⟩ := hw
    exact hserve t hlast w ⟨hup, ht⟩
  · exact fun cnt _ => triple_cleared (rec_serviceFlag fuel u8Value cnt) 4

/-- A link change is not acknowledged if bank 2 is the cached bank. -/
theorem triple_linkFlags_of_eq (fuel : Nat) {u8Value : Byte} (hset : u8Value.getLsbD 4 = true) :
    Triple Env AckGuard (fun w => Inside LinkUp w ∧ Cached (· = .bank_2) w)
      (serviceFlags fuel u8Value (List.range 8)) fun _ => Inside LinkUp := by
  refine triple_serviceFlags_at linkUp_stable List.pairwise_lt_range (k := 4) (by decide) ?_ ?_ ?_
  · intro cnt hlt
    exact triple_beside (triple_linkUp (linkSame_serviceFlag fuel u8Value (by omega)))
      (KeepsBank.serviceFlag fun h => absurd h (by omega))
  · intro w hw
    obtain ⟨hup, t, ht, hlast⟩ := hw
    exact triple_linkLost fuel hset hlast w ⟨hup, ht⟩
  · exact fun cnt hlt => triple_linkUp (linkSame_serviceFlag fuel u8Value (by omega))

/-- A fresh record, and the chip as the snapshot shows it. -/
def Snapped (u8Value : Byte) (w : World) : Prop :=
  (∀ k ∈ [0, 1, 3, 4, 5], u8Value.getLsbD k = true → w.chip.eir.getLsbD k = true) ∧
    (u8Value.getLsbD 6 = true → w.chip.epktcnt ≠ 0)

theorem snapped_of_env {u8Value : Byte} {w w' : World} (hr : Env w w')
    (hw : Snapped u8Value w) : Snapped u8Value w' := by
  cases hr with
  | chip hc =>
      refine ⟨fun k hk hset => ?_, fun hset => ?_⟩
      · exact eir_of_event hc (hw.1 k hk hset)
      · exact epktcnt_of_event hc (hw.2 hset)
  | handler he hc => exact hw
  | lwip offered pbufs => exact hw
  | hal b => exact hw

theorem snapped_eirValue (w : World) : Snapped w.chip.eirValue w := by
  have hbits : ∀ k ∈ [0, 1, 3, 4, 5], ∀ v : Byte,
      ((v &&& 0x3F) ||| 0x40).getLsbD k = v.getLsbD k ∧
      ((v &&& 0x3F) ||| 0).getLsbD k = v.getLsbD k := by decide
  have hpkt : ∀ v : Byte, ((v &&& 0x3F) ||| 0).getLsbD 6 = false := by decide
  unfold Snapped Chip.eirValue
  split
  case isTrue h =>
    refine ⟨fun k hk hset => ?_, fun hset => ?_⟩
    · rwa [(hbits k hk w.chip.eir).2] at hset
    · rw [hpkt] at hset
      exact absurd hset Bool.false_ne_true
  case isFalse h =>
    refine ⟨fun k hk hset => ?_, fun _ => h⟩
    rwa [(hbits k hk w.chip.eir).1] at hset

theorem triple_snapshotAck (L : Bank → Prop) :
    Triple Env AckGuard (fun w => Inside (fun _ => True) w ∧ Cached L w) snapshot
      fun v w => Inside (fun w => Snapped v w ∧ w.log = []) w ∧ Cached L w := by
  have hinside : Stable Env AckGuard (Inside fun _ => True) := inside_stable fun _ _ _ h => h
  have hsnap : ∀ v, Stable Env AckGuard (Inside (Snapped v)) := fun v =>
    inside_stable fun _ _ => snapped_of_env
  have hfresh : ∀ v, Stable Env AckGuard (Inside fun w => Snapped v w ∧ w.log = []) := fun v =>
    inside_stable fun _ _ hr hw => ⟨snapped_of_env hr hw.1, (log_of_env hr).trans hw.2⟩
  have hmain : Triple Env AckGuard (Inside fun _ => True) snapshot
      fun v => Inside fun w => Snapped v w ∧ w.log = [] := by
    unfold snapshot
    refine Triple.bind (M := fun v => Inside (Snapped v)) ?_ fun v => ?_
    · refine Triple.bind (Triple.frame hinside (rec_of_all (S := fun _ => False)
        (all_selectBank (A := fun _ => True) _)) fun _ _ hr hw => ⟨hr.at_ hw.1, trivial⟩)
        fun _ => ?_
      refine Triple.act hinside hsnap fun w hw => ⟨hw.1, ?_⟩
      dsimp only
      rw [Chip.readControl_eir]
      exact snapped_eirValue w
    · refine Triple.bind (M := fun _ => Inside fun w => Snapped v w ∧ w.log = []) ?_ fun _ => ?_
      · exact Triple.modify (hsnap v) (fun _ => hfresh v) fun w hw => ⟨hw.1, hw.2, rfl⟩
      · exact Triple.pure (Q := fun v => Inside fun w => Snapped v w ∧ w.log = []) (hfresh v)
  exact Triple.and (fun _ _ => bankEnv_of_env) hmain KeepsBank.snapshot

/-- What the pass acknowledges, with bank `b` cached at its start. -/
def Outcome (u8Value : Byte) (b : Bank) (w : World) : Prop :=
  Acked u8Value w.log ↔ ¬(u8Value.getLsbD 4 = true ∧ b = .bank_2)

theorem outcome_stable (u8Value : Byte) (b : Bank) :
    Stable Env AckGuard (Inside (Outcome u8Value b)) := by
  refine inside_stable fun w w' hr hw => ?_
  unfold Outcome
  rwa [log_of_env hr]

theorem acked_iff {u8Value : Byte} {b : Bank} {log : List Entry}
    (heir : ∀ k, k ∈ [0, 1, 3, 5] → u8Value.getLsbD k = true → Cleared k log)
    (hpkt : u8Value.getLsbD 6 = true → decs log = 1)
    (hlink : u8Value.getLsbD 4 = true → b ≠ .bank_2 → Cleared 4 log)
    (hlost : u8Value.getLsbD 4 = true → b = .bank_2 → ¬Cleared 4 log) :
    Acked u8Value log ↔ ¬(u8Value.getLsbD 4 = true ∧ b = .bank_2) := by
  constructor
  · intro hack hbad
    exact hlost hbad.1 hbad.2 (hack.1 4 (by decide) hbad.1)
  · intro hgood
    refine ⟨fun k hk hset => ?_, hpkt⟩
    by_cases h4 : k = 4
    · subst h4
      exact hlink hset fun hb => hgood ⟨hset, hb⟩
    · refine heir k ?_ hset
      simp only [List.mem_cons, List.not_mem_nil, or_false] at hk ⊢
      omega

/-- A triple about a flag that is set in the snapshot, or nothing at all. -/
theorem triple_of_set {α : Type} {φ : Prop} {P Q : World → Prop} {p : Fw α} (hrec : All Rec p)
    (hin : ∀ w, P w → Inside (fun _ => True) w)
    (h : φ → Triple Env AckGuard P p fun _ => Inside Q) :
    Triple Env AckGuard P p fun _ => Inside fun w => φ → Q w := by
  by_cases hφ : φ
  · exact Triple.conseq (h hφ) (fun _ hw => hw) fun _ _ hw => ⟨hw.1, fun _ => hw.2⟩
  · have hinside : Stable Env AckGuard (Inside fun _ => True) := inside_stable fun _ _ _ h => h
    refine Triple.conseq (Triple.frame hinside hrec fun _ _ hr hw => ⟨hr.at_ hw.1, trivial⟩) hin
      fun _ _ hw => ⟨hw.1, fun h => absurd h hφ⟩

theorem triple_outcome (fuel : Nat) (u8Value : Byte) (b : Bank) :
    Triple Env AckGuard
      (fun w => Inside (fun w => Snapped u8Value w ∧ w.log = []) w ∧ Cached (· = b) w)
      (serviceFlags fuel u8Value (List.range 8))
      fun _ w => Inside (Outcome u8Value b) w ∧ Cached (fun _ => True) w := by
  have hrec : All Rec (serviceFlags fuel u8Value (List.range 8)) := by
    induction List.range 8 with
    | nil => exact all_pure ()
    | cons cnt next ih => exact (rec_serviceFlag fuel u8Value cnt).bind fun _ => ih
  have hnone : ∀ (k : Nat) (w : World), w.log = [] → ¬Cleared k w.log := by
    intro k w hlog hcl
    rw [hlog] at hcl
    obtain ⟨e, hmem, _⟩ := hcl
    cases hmem
  have heir := Triple.forall fun k => triple_of_set (Q := fun w => Cleared k w.log)
    (φ := k ∈ [0, 1, 3, 5] ∧ u8Value.getLsbD k = true) hrec
    (P := fun w => Inside (fun w => Snapped u8Value w ∧ w.log = []) w ∧ Cached (· = b) w)
    (fun w hw => ⟨hw.1.1, trivial⟩) fun hk =>
      Triple.conseq (triple_ackFlags fuel hk.1 hk.2) (fun w hw => ⟨hw.1.1, .inl
        (hw.1.2.1.1 k ((by decide : ∀ k ∈ [0, 1, 3, 5], k ∈ [0, 1, 3, 4, 5]) k hk.1) hk.2)⟩)
        fun _ _ hw => hw
  have hpkt := triple_of_set (Q := fun w => decs w.log = 1) (φ := u8Value.getLsbD 6 = true) hrec
    (P := fun w => Inside (fun w => Snapped u8Value w ∧ w.log = []) w ∧ Cached (· = b) w)
    (fun w hw => ⟨hw.1.1, trivial⟩) fun hset =>
      Triple.conseq (triple_countFlags fuel hset)
        (fun w hw => ⟨hw.1.1, by rw [hw.1.2.2]; rfl, hw.1.2.1.2 hset⟩) fun _ _ hw => hw
  have hlink := triple_of_set (Q := fun w => Cleared 4 w.log)
    (φ := u8Value.getLsbD 4 = true ∧ b ≠ .bank_2) hrec
    (P := fun w => Inside (fun w => Snapped u8Value w ∧ w.log = []) w ∧ Cached (· = b) w)
    (fun w hw => ⟨hw.1.1, trivial⟩) fun hset =>
      Triple.conseq (triple_linkFlags_of_ne fuel hset.1 hset.2)
        (fun w hw => ⟨⟨hw.1.1, .inl (hw.1.2.1.1 4 (by decide) hset.1)⟩, hw.2⟩) fun _ _ hw => hw
  have hlost := triple_of_set (Q := fun w => ¬Cleared 4 w.log)
    (φ := u8Value.getLsbD 4 = true ∧ b = .bank_2) hrec
    (P := fun w => Inside (fun w => Snapped u8Value w ∧ w.log = []) w ∧ Cached (· = b) w)
    (fun w hw => ⟨hw.1.1, trivial⟩) fun hset =>
      Triple.conseq (triple_linkFlags_of_eq fuel hset.1)
        (fun w hw => ⟨⟨hw.1.1, hw.1.2.1.1 4 (by decide) hset.1, hnone 4 w hw.1.2.2⟩,
          hset.2 ▸ hw.2⟩) fun _ _ hw => ⟨hw.1, hw.2.2⟩
  have hbank : Triple BankEnv (Goal False) (Cached (· = b))
      (serviceFlags fuel u8Value (List.range 8)) fun _ => Cached fun _ => True :=
    Triple.conseq (KeepsBank.serviceFlags fuel u8Value _)
      (fun w hw => hw.imp fun t ht => ⟨ht.1, trivial⟩) fun _ _ hw => hw
  have hR : ∀ w w', Env w w' → Env w w' := fun _ _ h => h
  refine Triple.conseq (Triple.and hR heir (Triple.and hR hpkt (Triple.and hR hlink
    (Triple.and (fun _ _ => bankEnv_of_env) hlost hbank)))) ?_ ?_
  · exact fun w hw => ⟨hw, hw, hw, hw, hw.2⟩
  · intro _ w hw
    obtain ⟨h1, h2, h3, h4, hc⟩ := hw
    refine ⟨⟨h2.1, acked_iff (fun k hk hset => (h1 k).2 ⟨hk, hset⟩) h2.2 ?_ ?_⟩, hc⟩
    · exact fun hset hb => h3.2 ⟨hset, hb⟩
    · exact fun hset hb => h4.2 ⟨hset, hb⟩

/-- The loop: control is inside, and some bank is cached. -/
def LoopAck (w : World) : Prop := Inside (fun _ => True) w ∧ Cached (fun _ => True) w

theorem inside_true_stable : Stable Env AckGuard (Inside fun _ => True) :=
  inside_stable fun _ _ _ h => h

theorem loopAck_stable : Stable Env AckGuard LoopAck := beside_stable inside_true_stable

theorem triple_loopAck {α : Type} {p : Fw α} (h : All Rec p)
    (hbank : KeepsBank (fun _ => True) p) :
    Triple Env AckGuard LoopAck p fun _ => LoopAck :=
  triple_beside (Triple.frame inside_true_stable h fun _ _ hr hw => ⟨hr.at_ hw.1, trivial⟩) hbank

/-- Every pass ends with its outcome in the record. -/
theorem triple_passAck (fuel : Nat) : Triple Env AckGuard LoopAck (pass fuel) fun _ => LoopAck := by
  have hcached : ∀ d : Dev, Stable Env AckGuard
      fun w => Inside (fun _ => True) w ∧ Cached (· = d.bnBank) w := fun _ =>
    beside_stable inside_true_stable
  have hout : ∀ v b, Stable Env AckGuard
      fun w => Inside (Outcome v b) w ∧ Cached (fun _ => True) w := fun v b =>
    beside_stable (outcome_stable v b)
  have hend : ∀ v b, Stable Env AckGuard
      fun w => (w.at_ = .passEnd v b ∧ Outcome v b w) ∧ Cached (fun _ => True) w := fun v b =>
    { env := fun w w' hr hw => by
        refine ⟨⟨?_, ?_⟩, cached_stable.env w w' (bankEnv_of_env hr) hw.2⟩
        · cases hr <;> exact hw.1.1
        · unfold Outcome
          rw [log_of_env hr]
          exact hw.1.2
      guard := fun w hw v' b' hat => by
        obtain ⟨rfl, rfl⟩ := Label.passEnd.inj (hw.1.1.symm.trans hat)
        exact hw.1.2 }
  unfold pass
  refine Triple.bind (M := fun d w => Inside (fun _ => True) w ∧ Cached (· = d.bnBank) w) ?_
    fun d => ?_
  · refine Triple.gets loopAck_stable hcached fun w hw => ⟨hw.1, ?_⟩
    obtain ⟨t, ht, _⟩ := hw.2
    exact ⟨t, ht, ht.2.cached.symm⟩
  refine Triple.bind (triple_snapshotAck _) fun u8Value => ?_
  refine Triple.bind (triple_outcome fuel u8Value d.bnBank) fun _ => ?_
  refine Triple.bind (M := fun _ w => (w.at_ = .passEnd u8Value d.bnBank ∧
    Outcome u8Value d.bnBank w) ∧ Cached (fun _ => True) w) ?_ fun _ => ?_
  · exact Triple.modify (hout _ _) (fun _ => hend _ _) fun w hw =>
      ⟨⟨rfl, hw.1.2⟩, hw.2.imp fun t ht => ⟨⟨ht.1.1, ht.1.2.cached, ht.1.2.selected,
        ht.1.2.routed⟩, trivial⟩⟩
  · exact Triple.modify (hend _ _) (fun _ => loopAck_stable) fun w hw =>
      ⟨⟨nofun, trivial⟩, hw.2.imp fun t ht => ⟨⟨ht.1.1, ht.1.2.cached, ht.1.2.selected,
        ht.1.2.routed⟩, trivial⟩⟩

/-! ## the loop -/

theorem triple_loopBodyAck (fuel : Nat) :
    Triple Env AckGuard LoopAck (loopBody fuel) fun _ => LoopAck := by
  have hlocal : ∀ f : World → BitVec 32, All Rec (Res.gets f) := fun f =>
    (all_gets f).mpr fun _ => ⟨id, .inl ⟨rfl, rfl⟩⟩
  have hsend : All Rec linkOutput :=
    all_linkOutput (fun _ _ => rec_of_act) fun _ _ h _ => rec_of_local h
  unfold loopBody serviceInterrupts decCounter
  refine Triple.bind (triple_loopAck hsend KeepsBank.linkOutput) fun _ => ?_
  refine Triple.bind (triple_loopAck (hlocal _) (KeepsBank.gets _)) fun n => ?_
  split
  · refine Triple.bind (triple_loopAck ?_ ?_) fun _ => triple_passAck fuel
    · refine (hlocal _).bind fun n => ?_
      exact (all_modify _).mpr fun _ => ⟨id, .inl ⟨rfl, rfl⟩⟩
    · refine (KeepsBank.gets _).bind fun n => ?_
      exact KeepsBank.modify fun _ => ⟨rfl, rfl, .rfl⟩
  · exact Triple.pure (Q := fun _ => LoopAck) loopAck_stable

theorem triple_strtDrAck (fuel : Nat) :
    Triple Env AckGuard LoopAck (strtDr fuel) fun _ => LoopAck := by
  refine triple_loopAck ?_ (KeepsBank.of_keeps (fun _ => Keeps.strtDr fuel) fun _ _ => trivial)
  refine all_strtDr (fun _ _ => rec_of_act) ?_ ?_ fuel
  · exact (all_modify _).mpr fun _ => ⟨id, .inr ⟨_, rfl, rfl, rfl⟩⟩
  · exact rec_of_all (S := fun _ => False) (all_BitFieldSet (A := fun _ => True) trivial _)

theorem loopAck_of_atReset {w : World} (h : AtReset w) : LoopAck w := by
  refine ⟨⟨fun v b hat => ?_, trivial⟩, .start, ⟨by decide, ?_, ?_, ?_⟩, trivial⟩
  · rw [h.at_] at hat
    cases hat
  · rw [h.dev]
    rfl
  · unfold Chip.bsel
    rw [h.econ1]
    rfl
  · simp [Routed, h.log, Trail.start]

theorem ackGuard_of_reachable {fuel : Nat} {w w' : World} {c : Ctl World} (hw : AtReset w)
    (h : Reachable fuel w (c, w')) : AckGuard w' := by
  have hinv : Loop.Inv Env AckGuard LoopAck (.run (strtDr fuel), w) :=
    triple_strtDrAck fuel w (loopAck_of_atReset hw)
  exact Loop.Inv.guard loopAck_stable
    (Loop.sound loopAck_stable (triple_loopBodyAck fuel) hinv h)

/-- **Interrupt acknowledgement.**  Whenever a pass ends, every flag of its
snapshot but WOLIF has been cleared during the pass, and EPKTCNT decremented
exactly once if PKTIF was set, if and only if the snapshot did not show LINKIF
with bank 2 cached at the start of the pass. -/
theorem acked_of_reachable {fuel : Nat} {w w' : World} {c : Ctl World} {u8Value : Byte} {b : Bank}
    (hw : AtReset w) (h : Reachable fuel w (c, w')) (hat : w'.at_ = .passEnd u8Value b) :
    Acked u8Value w'.log ↔ ¬(u8Value.getLsbD 4 = true ∧ b = .bank_2) :=
  ackGuard_of_reachable hw h u8Value b hat

/-- The chip reports a receive error. -/
def rxFailed (w : World) : World := w.drive { w.chip with eir := w.chip.eir ||| RXERIF }

/-- The chip reports a link change. -/
def linkChanged (w : World) : World :=
  w.drive { w.chip with
    eir := w.chip.eir ||| 0x10
    phy := fun a => if a = Chip.PHIR then w.chip.phy a ||| 0x14 else w.chip.phy a }

/-- A receive error after start-up: the pass acknowledges it. -/
theorem acked_of_reachable_rxFailed :
    ∃ c w', Reachable 1 World.powerOn (c, w') ∧ w'.at_ = .passEnd RXERIF .bank_1 ∧
      (Acked RXERIF w'.log ↔ ¬(RXERIF.getLsbD 4 = true ∧ Bank.bank_1 = .bank_2)) := by
  have hrun : (Res.run (strtDr 1) World.powerOn).map (fun r =>
      (rxFailed r.2).exti && (rxFailed r.2).enc28j60intCounter == 0 &&
      (advance 23 (loopBody 1, handled (rxFailed r.2))).2.at_ == .passEnd RXERIF .bank_1)
        = some true := by
    decide +kernel
  obtain ⟨⟨_, w₁⟩, hw₁, hall⟩ := Option.map_eq_some_iff.mp hrun
  simp only [Bool.and_eq_true, beq_iff_eq] at hall
  obtain ⟨⟨hexti, hcount⟩, hat⟩ := hall
  have hboot : Reachable 1 World.powerOn (.head, handled (rxFailed w₁)) :=
    ((Loop.steps_of_run Env _ hw₁).tail (.env (.chip (.raise RXERIF (by decide))))).tail
      (.env (.handler hexti fun hmax => absurd (hcount.symm.trans hmax) (by decide)))
  have hend := (hboot.tail .enter).trans (Loop.steps_of_steps _ (steps_advance Env 23 _))
  exact ⟨_, _, hend, hat, acked_of_reachable atReset_powerOn hend hat⟩

/-- A link change, a pass, and a second link change (with a receive error to
raise INT, since the first pass left EIE.LINKIE clear): the second pass reads
LINKIF and ends without having cleared it. -/
theorem not_acked_linkChanged :
    ¬ ∀ (fuel : Nat) (w w' : World) (c : Ctl World) (u8Value : Byte) (b : Bank), AtReset w →
      Reachable fuel w (c, w') → w'.at_ = .passEnd u8Value b → Acked u8Value w'.log := by
  intro h
  have hrun : (Res.run (strtDr 1) World.powerOn).map (fun r =>
      (linkChanged r.2).exti && (linkChanged r.2).enc28j60intCounter == 0 &&
      ((Res.run (loopBody 1) (handled (linkChanged r.2))).map fun r =>
        (rxFailed (linkChanged r.2)).exti && (rxFailed (linkChanged r.2)).enc28j60intCounter == 0 &&
        (advance 60 (loopBody 1, handled (rxFailed (linkChanged r.2)))).2.at_ ==
          .passEnd 0x11 .bank_2) == some true) = some true := by
    decide +kernel
  obtain ⟨⟨_, w₁⟩, hw₁, hall⟩ := Option.map_eq_some_iff.mp hrun
  simp only [Bool.and_eq_true, beq_iff_eq] at hall
  obtain ⟨⟨hexti, hcount⟩, hpass⟩ := hall
  obtain ⟨⟨_, w₂⟩, hw₂, hall⟩ := Option.map_eq_some_iff.mp hpass
  simp only [Bool.and_eq_true, beq_iff_eq] at hall
  obtain ⟨⟨hexti', hcount'⟩, hat⟩ := hall
  have hfirst : Reachable 1 World.powerOn (.head, handled (linkChanged w₁)) :=
    ((Loop.steps_of_run Env _ hw₁).tail (.env (.chip .linkChange))).tail
      (.env (.handler hexti fun hmax => absurd (hcount.symm.trans hmax) (by decide)))
  have hsecond : Reachable 1 World.powerOn (.head, handled (rxFailed (linkChanged w₂))) :=
    ((((hfirst.tail .enter).trans (Loop.steps_of_run Env _ hw₂)).tail
      (.env (.chip .linkChange))).tail (.env (.chip (.raise RXERIF (by decide))))).tail
      (.env (.handler hexti' fun hmax => absurd (hcount'.symm.trans hmax) (by decide)))
  have hend := (hsecond.tail .enter).trans (Loop.steps_of_steps _ (steps_advance Env 60 _))
  have hack := h 1 _ _ _ _ _ atReset_powerOn hend hat
  exact (ackGuard_of_reachable atReset_powerOn hend _ _ hat).mp hack (by decide)

end Enc28j60
