import Enc28j60.Access
import Enc28j60.Buffer

/-!
# Enc28j60.Receive

What `enc28j60_etherReceive` does with the header it reads.

Its buffer reads are recorded as the chip answered them (`fetched`), its
register writes as they were sent (`sent`).  The length check refuses 1518 bytes
and more, `rxPkt.data` has 1500, and `rxPkt.ptrAddr` lies right behind it.
-/

namespace Enc28j60

open Res

/-! ## the record of a reception -/

/-- The answers to the buffer memory reads, newest first. -/
def fetched (log : List Entry) : List (List Byte) :=
  (log.filter fun e => e.cmd == opcode.u8readBufferMemory).map Entry.inp

/-- The bytes last sent to register `r`. -/
def sent (r : Byte) (log : List Entry) : Option (List Byte) :=
  (log.find? fun e => e.reg == some r).map Entry.out

/-- What control over `rxPkt` means: the payload fits `rxPkt.data`, `ptrAddr` is
the header's next-packet pointer `next`, and ERXRDPT was computed from it. -/
structure Bounded (d : Dev) (next : BitVec 16) (payload : List Byte) (w : World) : Prop where
  length_le : payload.length ≤ 1500
  ptrAddr : w.dev.u16 ptrAddr = next
  lockL : sent bank0.ERXRDPTL w.log = some [lo (lockPointer d next)]
  lockH : sent bank0.ERXRDPTH w.log = some [hi (lockPointer d next)]

/-- The environment, with SPI reads that succeed. -/
def HalEnv (w w' : World) : Prop := Env w w' ∧ w'.halOk = true

/-- The driver's record is `d`, but for the cached bank, and the buffer reads so
far are `F`. -/
structure Rx (F : List (List Byte)) (d : Dev) (w : World) : Prop where
  halOk : w.halOk = true
  fetched : fetched w.log = F
  dev : w.dev = d.setBank w.dev.bnBank

/-- The same inside a buffer memory read. -/
def RxOpen (F : List (List Byte)) (d : Dev) (w : World) : Prop :=
  w.sel = opcode.u8readBufferMemory ∧ Rx F d w

variable {F : List (List Byte)} {d : Dev}

theorem rx_of_env {w w' : World} (h : HalEnv w w') (hw : Rx F d w) : Rx F d w' := by
  obtain ⟨hdev, _⟩ := dev_of_env h.1
  refine ⟨h.2, ?_, ?_⟩
  · rw [log_of_env h.1]
    exact hw.fetched
  · rw [hdev]
    exact hw.dev

theorem rx_stable : Stable HalEnv (fun _ => True) (Rx F d) where
  env _ _ := rx_of_env
  guard _ _ := trivial

theorem rxOpen_stable : Stable HalEnv (fun _ => True) (RxOpen F d) where
  env _ _ h hw := ⟨(dev_of_env h.1).2.trans hw.1, rx_of_env h hw.2⟩
  guard _ _ := trivial

/-- Some register commands have been sent as well. -/
def RxSent (F : List (List Byte)) (d : Dev) (sends : List (Byte × Byte)) (w : World) : Prop :=
  (∀ s ∈ sends, sent s.1 w.log = some [s.2]) ∧ Rx F d w

theorem rxSent_stable {sends : List (Byte × Byte)} :
    Stable HalEnv (fun _ => True) (RxSent F d sends) where
  env w w' h hw := by
    refine ⟨fun s hs => ?_, rx_of_env h hw.2⟩
    rw [log_of_env h.1]
    exact hw.1 s hs
  guard _ _ := trivial

/-! ## register commands in between -/

/-- A step that neither reads the buffer nor names a register. -/
structure Switch (w w' : World) : Prop where
  halOk : w'.halOk = w.halOk
  dev : w'.dev = w.dev.setBank w'.dev.bnBank
  fetched : fetched w'.log = fetched w.log
  sent : ∀ r, sent r w'.log = sent r w.log

theorem cmd_ne : ∀ r : Byte,
    opcode.u8writeControlRegister ||| (0x1F &&& r) ≠ opcode.u8readBufferMemory ∧
    opcode.u8BitFieldSet ||| (0x1F &&& r) ≠ opcode.u8readBufferMemory ∧
    opcode.u8BitFieldClear ||| (0x1F &&& r) ≠ opcode.u8readBufferMemory := by
  decide

theorem fetched_cons_of_ne {e : Entry} {log : List Entry}
    (h : e.cmd ≠ opcode.u8readBufferMemory) : fetched (e :: log) = fetched log := by
  have hcmd : (e.cmd == opcode.u8readBufferMemory) = false := beq_false_of_ne h
  unfold fetched
  rw [List.filter_cons, hcmd]
  rfl

theorem switch_spiSend {cmd : Byte} {out : List Byte} (h : cmd ≠ opcode.u8readBufferMemory) :
    All Switch (spiSend none cmd out) := by
  unfold spiSend
  rw [all_modify]
  intro w
  exact ⟨rfl, rfl, fetched_cons_of_ne h, fun _ => rfl⟩

theorem switch_selectBank (r : Byte) : All Switch (selectBank r) := by
  have hrefl : ∀ w, Switch w w := fun w => ⟨rfl, rfl, rfl, fun _ => rfl⟩
  have hget : All Switch getDev := by
    unfold getDev
    rw [all_gets]
    exact hrefl
  unfold selectBank bankChange
  refine hget.bind fun d => All.ite ?_ (all_pure ())
  refine hget.bind fun d => All.ite (all_pure ()) ?_
  refine (switch_spiSend (cmd_ne _).2.2).bind fun _ => All.ite ?_ (all_pure ())
  refine (switch_spiSend (cmd_ne _).2.1).bind fun _ => ?_
  exact (all_modify _).mpr fun w => ⟨rfl, rfl, rfl, fun _ => rfl⟩

theorem Switch.rxSent {w w' : World} {sends : List (Byte × Byte)} (h : Switch w w')
    (hw : RxSent F d sends w) : RxSent F d sends w' := by
  refine ⟨fun s hs => ?_, h.halOk.trans hw.2.halOk, h.fetched.trans hw.2.fetched, ?_⟩
  · rw [h.sent]
    exact hw.1 s hs
  · rw [h.dev, hw.2.dev]
    rfl

theorem sent_cons_self (e : Entry) (log : List Entry) (r : Byte) (h : e.reg = some r) :
    sent r (e :: log) = some e.out := by
  simp [sent, h]

theorem sent_cons_of_ne (e : Entry) (log : List Entry) {r : Byte} (h : e.reg ≠ some r) :
    sent r (e :: log) = sent r log := by
  simp [sent, h]

/-- A register write only adds to what was sent. -/
theorem triple_writeReg {sends : List (Byte × Byte)} {r v : Byte} (h : ∀ s ∈ sends, s.1 ≠ r) :
    Triple HalEnv (fun _ => True) (RxSent F d sends) (writeReg r v)
      fun _ => RxSent F d ((r, v) :: sends) := by
  unfold writeReg sendReg
  refine Triple.bind (M := fun _ => RxSent F d sends) ?_ fun _ => ?_
  · exact Triple.frame rxSent_stable (switch_selectBank r) fun _ _ hs hw => hs.rxSent hw
  · refine Triple.modify rxSent_stable (fun _ => rxSent_stable) fun w hw => ?_
    refine ⟨fun s hs => ?_, hw.2.halOk, ?_, hw.2.dev⟩
    · rcases List.mem_cons.mp hs with rfl | hs
      · exact sent_cons_self _ _ _ rfl
      · rw [← hw.1 s hs]
        exact sent_cons_of_ne _ _ fun heq => h s hs (Option.some.inj heq).symm
    · rw [← hw.2.fetched]
      exact fetched_cons_of_ne (cmd_ne r).1

theorem triple_writeReg16 {rl rh : Byte} (hne : rl ≠ rh) (v : BitVec 16) :
    Triple HalEnv (fun _ => True) (Rx F d) (writeReg16 rl rh v)
      fun _ => RxSent F d [(rh, hi v), (rl, lo v)] := by
  unfold writeReg16
  refine Triple.bind (M := fun _ => RxSent F d [(rl, lo v)]) ?_ fun _ => ?_
  · exact Triple.conseq (triple_writeReg (show ∀ s ∈ ([] : List (Byte × Byte)), s.1 ≠ rl by simp)) (fun w hw => ⟨by simp, hw⟩)
      fun _ _ hw => hw
  · exact triple_writeReg (by simpa using hne)

/-! ## the buffer reads -/

/-- A buffer read stores as many bytes as it asks for. -/
theorem triple_spiRead (off n : Nat) :
    Triple HalEnv (fun _ => True) (RxOpen F d) (spiRead off n) fun _ w =>
      ∃ bs : List Byte, bs.length = n ∧ RxOpen (bs :: F) (d.store off bs) w := by
  have hstable : Stable HalEnv (fun _ => True) fun w =>
      ∃ bs : List Byte, bs.length = n ∧ RxOpen (bs :: F) (d.store off bs) w :=
    ⟨fun _ _ h ⟨bs, hlen, hw⟩ => ⟨bs, hlen, rxOpen_stable.env _ _ h hw⟩, fun _ _ => trivial⟩
  refine Triple.act rxOpen_stable (fun _ => hstable) fun w hw => ?_
  rw [if_pos ⟨hw.2.halOk, hw.1⟩]
  refine ⟨_, Chip.length_readBuffer n w.chip, hw.1, hw.2.halOk, ?_, ?_⟩
  · unfold fetched
    dsimp only [World.transact, World.drive]
    rw [← hw.2.fetched, List.filter_cons, if_pos (beq_iff_eq.mpr hw.1)]
    rfl
  · exact congrArg (fun d' : Dev => d'.store off (w.chip.readBuffer n).1) hw.2.dev

/-- A store into the image, computed from the image. -/
theorem triple_setU16 (off : Nat) (v : Dev → BitVec 16)
    (hv : ∀ d b, v (d.setBank b) = v d) :
    Triple HalEnv (fun _ => True) (RxOpen F d) (modifyDev fun d => d.setU16 off (v d))
      fun _ => RxOpen F (d.setU16 off (v d)) := by
  refine Triple.modify rxOpen_stable (fun _ => rxOpen_stable) fun w hw => ?_
  refine ⟨hw.1, hw.2.halOk, hw.2.fetched, ?_⟩
  have hvw : v w.dev = v d := by
    rw [hw.2.dev]
    exact hv d _
  dsimp only
  rw [hvw]
  exact congrArg (fun d' : Dev => d'.setU16 off (v d)) hw.2.dev

/-- Reading the record gives `d`, but for the cached bank. -/
theorem triple_getDevRx {P : World → Prop} (hP : Stable HalEnv (fun _ => True) P)
    (h : ∀ w, P w → Rx F d w) :
    Triple HalEnv (fun _ => True) P getDev fun a w => a = d.setBank a.bnBank ∧ P w :=
  Triple.gets hP (fun _ => hP.pure_and) fun w hw => ⟨(h w hw).dev, hw⟩

/-- The image after the length check: `len` is the length in the header. -/
def checked (d : Dev) : Dev := if 1518 ≤ (d.u16 rxPktLen).toNat then d.setU16 rxPktLen 0 else d

/-- The length check, for an assertion `P` about the driver's record. -/
theorem triple_lengthCheck {R : World → World → Prop} {G : World → Prop} {P : Dev → World → Prop}
    (hP : ∀ d, Stable R G (P d)) (hlen : ∀ w, P d w → w.dev.u16 rxPktLen = d.u16 rxPktLen)
    (hzero : Triple R G (P d) (modifyDev fun d => d.setU16 rxPktLen 0) fun _ =>
      P (d.setU16 rxPktLen 0)) :
    Triple R G (P d) checkPktLen fun err w =>
      (err = true ↔ (d.u16 rxPktLen).toNat < 1518) ∧ P (checked d) w := by
  have hdone : ∀ err : Bool, (err = true ↔ (d.u16 rxPktLen).toNat < 1518) →
      Triple R G (P (checked d)) (pure err) fun err w =>
        (err = true ↔ (d.u16 rxPktLen).toNat < 1518) ∧ P (checked d) w :=
    fun err herr => Triple.conseq (Triple.pure (Q := fun err w =>
      (err = true ↔ (d.u16 rxPktLen).toNat < 1518) ∧ P (checked d) w)
        (hP _).pure_and) (fun _ hw => ⟨herr, hw⟩) fun _ _ hw => hw
  unfold checkPktLen
  refine Triple.bind (M := fun dev w => dev.u16 rxPktLen = d.u16 rxPktLen ∧ P d w)
    (Triple.gets (hP d) (fun _ => (hP d).pure_and) fun w hw => ⟨hlen w hw, hw⟩)
    fun dev => Triple.of_pure fun hdev => ?_
  rw [hdev]
  by_cases hbig : 1518 ≤ (d.u16 rxPktLen).toNat
  · rw [if_pos hbig]
    refine Triple.bind hzero fun _ => ?_
    have hd : checked d = d.setU16 rxPktLen 0 := if_pos hbig
    rw [← hd]
    exact hdone false (by simp; omega)
  · rw [if_neg hbig]
    have hd : checked d = d := if_neg hbig
    have hend := hdone true (by simp; omega)
    rw [hd] at hend ⊢
    exact hend

theorem triple_checkPktLen :
    Triple HalEnv (fun _ => True) (RxOpen F d) checkPktLen fun _ => RxOpen F (checked d) :=
  (triple_lengthCheck (P := fun d => RxOpen F d) (fun _ => rxOpen_stable)
    (fun w hw => by rw [hw.2.dev, Dev.u16_setBank])
    (triple_setU16 rxPktLen (fun _ => 0) fun _ _ => rfl)).conseq (fun _ hw => hw)
    fun _ _ hw => hw.2

/-- The image after the header: next-packet pointer and status vector are
stored, and copied to `ptrAddr` and `rxPktLen`. -/
def headed (d : Dev) (nxt stat : List Byte) : Dev :=
  let d := d.store nxtPktAddr nxt
  let d := d.setU16 ptrAddr (d.u16 nxtPktAddr)
  let d := d.store rxStatVect stat
  checked (d.setU16 rxPktLen (d.u16 rxStatVect))

/-- Everything `enc28j60_etherReceive` leaves behind. -/
def Received (F : List (List Byte)) (d : Dev) (w : World) : Prop :=
  ∃ nxt stat payload : List Byte, nxt.length = 2 ∧ stat.length = 4 ∧
    payload.length = ((headed d nxt stat).u16 rxPktLen).toNat ∧
    let d' := (headed d nxt stat).store rxData payload
    let lock := lockPointer d' (d'.u16 ptrAddr)
    RxSent (payload :: stat :: nxt :: F) d'
      [(bank0.ERXRDPTH, hi lock), (bank0.ERXRDPTL, lo lock)] w

theorem received_stable : Stable HalEnv (fun _ => True) (Received F d) where
  env w w' h hw := by
    obtain ⟨nxt, stat, payload, h2, h4, hlen, hs⟩ := hw
    exact ⟨nxt, stat, payload, h2, h4, hlen, rxSent_stable.env w w' h hs⟩
  guard _ _ := trivial

theorem triple_etherReceive_rx :
    Triple HalEnv (fun _ => True) (Rx F d) etherReceive fun _ => Received F d := by
  have hsent : ∀ {F d sends} w, RxSent F d sends w → Rx F d w := fun _ hw => hw.2
  unfold etherReceive
  refine Triple.bind (triple_getDevRx rx_stable fun _ hw => hw) fun dev => ?_
  refine Triple.of_pure fun _ => ?_
  refine Triple.bind (M := fun _ => Rx F d) ?_ fun _ => ?_
  · exact Triple.conseq (triple_writeReg16 (by decide) _) (fun _ hw => hw) fun _ => hsent
  refine Triple.bind (M := fun _ => RxOpen F d) ?_ fun _ => ?_
  · refine Triple.modify rx_stable (fun _ => rxOpen_stable) fun w hw => ?_
    exact ⟨rfl, hw.halOk, hw.fetched, hw.dev⟩
  refine Triple.bind (triple_spiRead nxtPktAddr 2) fun _ => ?_
  refine Triple.exists fun nxt => Triple.of_pure fun h2 => ?_
  refine Triple.bind (triple_setU16 ptrAddr (fun d => d.u16 nxtPktAddr) fun _ _ => rfl) fun _ => ?_
  refine Triple.bind (triple_spiRead rxStatVect 4) fun _ => ?_
  refine Triple.exists fun stat => Triple.of_pure fun h4 => ?_
  refine Triple.bind (triple_setU16 rxPktLen (fun d => d.u16 rxStatVect) fun _ _ => rfl) fun _ => ?_
  refine Triple.bind triple_checkPktLen fun bReturnValue => ?_
  refine Triple.bind (triple_getDevRx rxOpen_stable fun _ hw => hw.2) fun dev => ?_
  refine Triple.of_pure fun hdev => ?_
  refine Triple.bind (triple_spiRead rxData _) fun _ => ?_
  refine Triple.exists fun payload => Triple.of_pure fun hlen => ?_
  refine Triple.bind (M := fun _ => Rx (payload :: stat :: nxt :: F)
    ((headed d nxt stat).store rxData payload)) ?_ fun _ => ?_
  · exact Triple.modify rxOpen_stable (fun _ => rx_stable) fun w hw =>
      ⟨hw.2.halOk, hw.2.fetched, hw.2.dev⟩
  refine Triple.bind (triple_getDevRx rx_stable fun _ hw => hw) fun dev' => ?_
  refine Triple.of_pure fun hdev' => ?_
  refine Triple.bind (M := fun _ => Received F d) ?_ fun _ => ?_
  · refine Triple.conseq (triple_writeReg16 (by decide) _) (fun _ hw => hw) fun _ w hw => ?_
    refine ⟨nxt, stat, payload, h2, h4, ?_, ?_⟩
    · rw [hlen, hdev]
      rfl
    · rw [hdev'] at hw
      exact hw
  · exact Triple.pure (Q := fun _ => Received F d) received_stable

/-! ## the length check -/

section Header

variable {n0 n1 l0 l1 s0 s1 : Byte}

theorem checked_u16 {b : Nat} (h : b + 2 ≤ rxPktLen ∨ rxPktLen + 2 ≤ b) :
    (checked d).u16 b = d.u16 b := by
  unfold checked
  split
  · exact Dev.u16_setU16_of_disjoint h
  · rfl

theorem checked_rxPktLen :
    (checked d).u16 rxPktLen = if 1518 ≤ (d.u16 rxPktLen).toNat then 0 else d.u16 rxPktLen := by
  unfold checked
  split
  · exact Dev.u16_setU16 d rxPktLen 0
  · rfl

/-- The header's next-packet pointer is in `ptrAddr`, -/
theorem headed_ptrAddr : (headed d [n0, n1] [l0, l1, s0, s1]).u16 ptrAddr = word n1 n0 := by
  unfold headed
  rw [checked_u16 (by decide), Dev.u16_setU16_of_disjoint (by decide)]
  rw [Dev.u16_store_of_disjoint (.inr (by simp [rxStatVect, ptrAddr])), Dev.u16_setU16]
  exact Dev.u16_store d nxtPktAddr n0 n1 []

/-- and its length in `rxPktLen`, unless it is refused. -/
theorem headed_rxPktLen : (headed d [n0, n1] [l0, l1, s0, s1]).u16 rxPktLen =
    if 1518 ≤ (word l1 l0).toNat then 0 else word l1 l0 := by
  unfold headed
  rw [checked_rxPktLen, Dev.u16_setU16, Dev.u16_store]

theorem checked_bufs : (checked d).rxBufStartAddr = d.rxBufStartAddr ∧
    (checked d).rxBufEndAddr = d.rxBufEndAddr := by
  unfold checked
  split <;> exact ⟨rfl, rfl⟩

theorem lockPointer_headed (nxt stat payload : List Byte) (p : BitVec 16) :
    lockPointer ((headed d nxt stat).store rxData payload) p = lockPointer d p := by
  have hst : (headed d nxt stat).rxBufStartAddr = d.rxBufStartAddr := checked_bufs.1
  have hnd : (headed d nxt stat).rxBufEndAddr = d.rxBufEndAddr := checked_bufs.2
  unfold lockPointer
  show (if p = (headed d nxt stat).rxBufStartAddr then (headed d nxt stat).rxBufEndAddr else _) = _
  rw [hst, hnd]

end Header

/-- The reception is bounded unless the length falls between what `rxPkt.data`
holds and what the length check refuses. -/
theorem bounded_iff_of_received {w : World} (h : Received F d w) :
    ∃ n0 n1 l0 l1 s0 s1 payload,
      fetched w.log = payload :: [l0, l1, s0, s1] :: [n0, n1] :: F ∧
      payload.length = (if 1518 ≤ (word l1 l0).toNat then 0 else word l1 l0).toNat ∧
      (Bounded d (word n1 n0) payload w ↔
        (word l1 l0).toNat ≤ 1500 ∨ 1518 ≤ (word l1 l0).toNat) := by
  obtain ⟨nxt, stat, payload, h2, h4, hlen, hsent, hrx⟩ := h
  obtain ⟨n0, n1, rfl⟩ := List.length_eq_two.mp h2
  obtain ⟨l0, l1, s0, s1, rfl⟩ : ∃ a b c e, stat = [a, b, c, e] := by
    match stat, h4 with
    | [a, b, c, e], _ => exact ⟨a, b, c, e, rfl⟩
  rw [headed_rxPktLen] at hlen
  refine ⟨n0, n1, l0, l1, s0, s1, payload, hrx.fetched, hlen, fun hb => ?_, fun hcond => ?_⟩
  · -- a length that is neither refused nor small is read in full
    by_contra hcond
    rw [not_or] at hcond
    rw [if_neg hcond.2] at hlen
    have := hb.length_le
    omega
  · have hle : payload.length ≤ 1500 := by
      rw [hlen]
      split
      · simp
      · omega
    have hptr : ((headed d [n0, n1] [l0, l1, s0, s1]).store rxData payload).u16 ptrAddr =
        word n1 n0 := by
      rw [Dev.u16_store_of_disjoint (.inr (by simp [rxData, ptrAddr]; omega)), headed_ptrAddr]
    rw [hptr, lockPointer_headed] at hsent
    refine ⟨hle, ?_, hsent (_, _) (.tail _ (.head _)), hsent (_, _) (.head _)⟩
    rw [hrx.dev, Dev.u16_setBank, hptr]

theorem received_of_steps {w w' : World} {r : Bool} (hw : w.halOk = true)
    (hs : Steps HalEnv (etherReceive, w) (pure r, w')) : Received (fetched w.log) w.dev w' := by
  have hrx : Rx (fetched w.log) w.dev w := ⟨hw, rfl, rfl⟩
  exact (wp.steps (triple_etherReceive_rx w hrx) hs w' .refl).2

/-! ## termination -/

theorem total_getDev : Total getDev := total_act _

theorem total_modifyDev (f : Dev → Dev) : Total (modifyDev f) := total_act _

theorem total_spiSend (reg : Option Byte) (cmd : Byte) (out : List Byte) :
    Total (spiSend reg cmd out) := total_act _

/-- A register command is sent whatever the chip does. -/
theorem total_sendReg (op r v : Byte) : Total (sendReg op r v) := by
  unfold sendReg selectBank bankChange
  refine Total.bind (total_getDev.bind fun _ => Total.ite ?_ (total_pure ()))
    fun _ => total_spiSend _ _ _
  refine total_getDev.bind fun _ => Total.ite (total_pure ()) ?_
  refine (total_spiSend _ _ _).bind fun _ => Total.ite ?_ (total_pure ())
  exact (total_spiSend _ _ _).bind fun _ => total_modifyDev _

theorem total_writeReg16 (rl rh : Byte) (v : BitVec 16) : Total (writeReg16 rl rh v) :=
  (total_sendReg _ _ _).bind fun _ => total_sendReg _ _ _

/-- There is no loop in it that the chip could keep running. -/
theorem total_etherReceive : Total etherReceive := by
  have hread : ∀ off n, Total (spiRead off n) := fun _ _ => total_act _
  have hcheck : Total checkPktLen :=
    total_getDev.bind fun _ =>
      Total.ite ((total_modifyDev _).bind fun _ => total_pure _) (total_pure _)
  unfold etherReceive
  refine total_getDev.bind fun _ => ?_
  refine (total_writeReg16 _ _ _).bind fun _ => ?_
  refine Total.bind (total_act _) fun _ => ?_
  refine (hread _ _).bind fun _ => ?_
  refine (total_modifyDev _).bind fun _ => ?_
  refine (hread _ _).bind fun _ => ?_
  refine (total_modifyDev _).bind fun _ => ?_
  refine hcheck.bind fun _ => ?_
  refine total_getDev.bind fun _ => ?_
  refine (hread _ _).bind fun _ => ?_
  refine Total.bind (total_act _) fun _ => ?_
  refine total_getDev.bind fun _ => ?_
  exact (total_writeReg16 _ _ _).bind fun _ => total_pure _

/-! ## every header -/

/-- `enc28j60_etherReceive` always returns.  Whatever header the chip answers,
it keeps to `rxPkt.data` and to the header's pointer if and only if the length in
the status vector is at most 1500 or at least 1518. -/
theorem bounded_iff {w : World} (hw : w.halOk = true) :
    (∀ p w₁, Steps HalEnv (etherReceive, w) (p, w₁) → ∃ r w', run p w₁ = some (r, w')) ∧
    ∀ r w', Steps HalEnv (etherReceive, w) (pure r, w') →
      ∃ n0 n1 l0 l1 s0 s1 payload,
        fetched w'.log = payload :: [l0, l1, s0, s1] :: [n0, n1] :: fetched w.log ∧
        (Bounded w.dev (word n1 n0) payload w' ↔
          (word l1 l0).toNat ≤ 1500 ∨ 1518 ≤ (word l1 l0).toNat) := by
  refine ⟨fun p w₁ hs => total_etherReceive.steps hs, fun r w' hs => ?_⟩
  obtain ⟨n0, n1, l0, l1, s0, s1, payload, hf, _, hiff⟩ :=
    bounded_iff_of_received (received_of_steps hw hs)
  exact ⟨n0, n1, l0, l1, s0, s1, payload, hf, hiff⟩

/-- Memory that answers an empty header: nothing is read behind it. -/
theorem bounded_iff_powerOn : ∃ r w', run etherReceive World.powerOn = some (r, w') ∧
    Bounded World.powerOn.dev 0x0000 [] w' := by
  have hrun : (run etherReceive World.powerOn).map (fun x => fetched x.2.log) =
      some [[], [0, 0, 0, 0], [0, 0]] := by decide +kernel
  obtain ⟨⟨r, w'⟩, hr, hf⟩ := Option.map_eq_some_iff.mp hrun
  obtain ⟨n0, n1, l0, l1, s0, s1, payload, hf', hiff⟩ :=
    (bounded_iff (w := World.powerOn) rfl).2 r w' (steps_of_run HalEnv hr)
  rw [show fetched w'.log = _ from hf] at hf'
  obtain ⟨rfl, h4, h2⟩ : [] = payload ∧ [0, 0, 0, 0] = [l0, l1, s0, s1] ∧ [0, 0] = [n0, n1] := by
    simpa [fetched, World.powerOn] using hf'
  simp only [List.cons.injEq, and_true] at h4 h2
  obtain ⟨rfl, rfl, rfl, rfl⟩ := h4
  obtain ⟨rfl, rfl⟩ := h2
  exact ⟨r, w', hr, hiff.mpr (by decide)⟩

/-- A chip whose buffer starts with a header for a frame of 1502 bytes. -/
def overlong : World :=
  { World.powerOn with
    chip := { Chip.powerOn with mem := fun i => [0xE6, 0x05, 0xDE, 0x05].getD i 0xAA } }

/-- The frame is read in full, over `rxPkt.ptrAddr`. -/
theorem not_bounded_overlong : ∃ r w' payload, run etherReceive overlong = some (r, w') ∧
    fetched w'.log = [payload, [0xDE, 0x05, 0xAA, 0xAA], [0xE6, 0x05]] ∧
    payload.length = 1502 ∧ ¬Bounded overlong.dev 0x05E6 payload w' := by
  have hrun : (run etherReceive overlong).map (fun x => (fetched x.2.log).tail) =
      some [[0xDE, 0x05, 0xAA, 0xAA], [0xE6, 0x05]] := by decide +kernel
  obtain ⟨⟨r, w'⟩, hr, hf⟩ := Option.map_eq_some_iff.mp hrun
  obtain ⟨n0, n1, l0, l1, s0, s1, payload, hf', hlen, hiff⟩ :=
    bounded_iff_of_received (received_of_steps (w := overlong) rfl (steps_of_run HalEnv hr))
  dsimp only at hf
  rw [hf'] at hf
  obtain ⟨h4, h2⟩ : [l0, l1, s0, s1] = [0xDE, 0x05, 0xAA, 0xAA] ∧ [n0, n1] = [0xE6, 0x05] := by
    simpa [fetched, overlong, World.powerOn] using hf
  simp only [List.cons.injEq, and_true] at h4 h2
  obtain ⟨rfl, rfl, rfl, rfl⟩ := h4
  obtain ⟨rfl, rfl⟩ := h2
  refine ⟨r, w', payload, hr, hf', hlen, fun hb => ?_⟩
  have := hb.length_le
  rw [hlen] at this
  exact absurd this (by decide)

end Enc28j60
