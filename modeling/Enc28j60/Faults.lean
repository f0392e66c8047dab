import Enc28j60.Operated
import Enc28j60.Receive
import Enc28j60.RxRing

/-!
# Enc28j60.Faults

`enc28j60_etherReceive` when the SPI port reports failed transfers.

The function drops what `fncPtrRead` returns, so `etherReceiveTraced` is the same
program with the outcome of each of its three reads beside its value.

* `afterReads` — the record it leaves, as a function of the outcomes: a read that
  failed leaves the field of the frame before;
* `faultSafe_iff` — which outcomes it is safe against.
-/

namespace Enc28j60

open Res

/-! ## the outcomes of the reads -/

/-- `fncPtrRead`, with the bytes of a transfer that succeeds. -/
def spiReadTraced (off n : Nat) : Fw (Option (List Byte)) :=
  Res.act fun w =>
    if w.halOk ∧ w.sel = opcode.u8readBufferMemory then
      let r := w.chip.readBuffer n
      (some r.1, { w.transact none w.sel [] r.1 r.2 with dev := w.dev.store off r.1 })
    else (none, w)

theorem spiRead_eq (off n : Nat) :
    spiRead off n = (spiReadTraced off n >>= fun r => pure r.isSome) := by
  have hact : ∀ w : World,
      (if w.halOk ∧ w.sel = opcode.u8readBufferMemory then
        (true, { w.transact none w.sel [] (w.chip.readBuffer n).1 (w.chip.readBuffer n).2 with
          dev := w.dev.store off (w.chip.readBuffer n).1 })
        else (false, w)) =
      ((if w.halOk ∧ w.sel = opcode.u8readBufferMemory then
        (some (w.chip.readBuffer n).1,
          { w.transact none w.sel [] (w.chip.readBuffer n).1 (w.chip.readBuffer n).2 with
            dev := w.dev.store off (w.chip.readBuffer n).1 })
        else (none, w)).1.isSome,
       (if w.halOk ∧ w.sel = opcode.u8readBufferMemory then
        (some (w.chip.readBuffer n).1,
          { w.transact none w.sel [] (w.chip.readBuffer n).1 (w.chip.readBuffer n).2 with
            dev := w.dev.store off (w.chip.readBuffer n).1 })
        else (none, w)).2) := fun w => by
    split <;> rfl
  unfold spiRead
  simp only [hact]
  rfl

/-- The outcomes of the three reads of a reception. -/
structure Reads where
  nxtPktAddr : Option (List Byte)
  rxStatVect : Option (List Byte)
  data : Option (List Byte)

/-- `enc28j60_etherReceive`, with the outcomes of its reads. -/
def etherReceiveTraced : Fw (Bool × Reads) := do
  let dev ← getDev
  writeReg16 bank0.ERDPTL bank0.ERDPTH (dev.u16 ptrAddr)
  spiOpen opcode.u8readBufferMemory
  let nxt ← spiReadTraced nxtPktAddr 2
  modifyDev fun d => d.setU16 ptrAddr (d.u16 nxtPktAddr)
  let stat ← spiReadTraced rxStatVect 4
  modifyDev fun d => d.setU16 rxPktLen (d.u16 rxStatVect)
  let bReturnValue ← checkPktLen
  let dev ← getDev
  let data ← spiReadTraced rxData (dev.u16 rxPktLen).toNat
  spiClose
  let dev ← getDev
  writeReg16 bank0.ERXRDPTL bank0.ERXRDPTH (lockPointer dev (dev.u16 ptrAddr))
  pure (bReturnValue, ⟨nxt, stat, data⟩)

/-- It is the same program. -/
theorem etherReceive_eq : etherReceive = (etherReceiveTraced >>= fun r => pure r.1) := by
  unfold etherReceive etherReceiveTraced
  simp only [spiRead_eq, bind_assoc, pure_bind]

/-! ## the record afterwards -/

/-- A read of `off`, if it succeeded. -/
def Dev.fetch (d : Dev) (off : Nat) : Option (List Byte) → Dev
  | some bs => d.store off bs
  | none => d

/-- The record once the header was read and its fields copied. -/
def afterHeader (d : Dev) (r : Reads) : Dev :=
  let d := d.fetch nxtPktAddr r.nxtPktAddr
  let d := d.setU16 ptrAddr (d.u16 nxtPktAddr)
  let d := d.fetch rxStatVect r.rxStatVect
  d.setU16 rxPktLen (d.u16 rxStatVect)

/-- The record after the length check. -/
def afterCheck (d : Dev) (r : Reads) : Dev :=
  let d := afterHeader d r
  if 1518 ≤ (d.u16 rxPktLen).toNat then d.setU16 rxPktLen 0 else d

/-- The record after the payload. -/
def afterReads (d : Dev) (r : Reads) : Dev := (afterCheck d r).fetch rxData r.data

/-! ## what is tracked -/

/-- The record is `d`, but for the cached bank, and ERXRDPT is `v`. -/
structure Held (d : Dev) (v : BitVec 16) (w : World) : Prop where
  dev : w.dev = d.setBank w.dev.bnBank
  erxrdpt : w.chip.ptr Chip.ERXRDPT = v

variable {d : Dev} {v : BitVec 16}

theorem ptr_of_regs {c c' : Chip} (h : c'.regs = c.regs) (a : BitVec 5) : c'.ptr a = c.ptr a := by
  unfold Chip.ptr
  rw [h]

theorem held_stable : Stable Env (fun _ => True) (Held d v) where
  env w w' h hw := by
    refine ⟨?_, (ptr_of_regs (regs_of_env h) _).trans hw.erxrdpt⟩
    rw [(dev_of_env h).1]
    exact hw.dev
  guard _ _ := trivial

theorem held_blind : Blind (Held d v) := by
  intro w w' h hw
  refine ⟨?_, (ptr_of_regs (regs_of_blind h) _).trans hw.erxrdpt⟩
  cases h with
  | cache b =>
      show { w.dev with bnBank := b } = d.setBank b
      rw [hw.dev]
      rfl
  | store off bs hs => exact hs.elim
  | fetch off hc hs => exact hs.elim
  | idle => exact hw.dev
  | sel s => exact hw.dev
  | spi hc => exact hw.dev

/-- The same while the transaction is open. -/
def HeldOpen (d : Dev) (v : BitVec 16) (w : World) : Prop :=
  w.sel = opcode.u8readBufferMemory ∧ Held d v w

theorem heldOpen_stable : Stable Env (fun _ => True) (HeldOpen d v) where
  env w w' h hw := ⟨(dev_of_env h).2.trans hw.1, held_stable.env w w' h hw.2⟩
  guard _ _ := trivial

/-- Beside the banks of some history. -/
def Banked (P : World → Prop) (w : World) : Prop := P w ∧ Cached (fun _ => True) w

theorem banked {α : Type} {p : Fw α} {P : World → Prop} {Q : α → World → Prop}
    (hk : KeepsBank (fun _ => True) p) (h : Triple Env (fun _ => True) P p Q) :
    Triple Env (fun _ => True) (Banked P) p fun a => Banked (Q a) :=
  KeepsBank.and (fun _ _ => bankEnv_of_env) hk h

theorem banked_stable {P : World → Prop} (hP : Stable Env (fun _ => True) P) :
    Stable Env (fun _ => True) (Banked P) where
  env w w' h hw := ⟨hP.env w w' h hw.1, cached_stable.env w w' (bankEnv_of_env h) hw.2⟩
  guard _ _ := trivial

/-! ## the parts of a reception -/

theorem triple_getDev_held {P : World → Prop} (hP : Stable Env (fun _ => True) P)
    (h : ∀ w, P w → w.dev = d.setBank w.dev.bnBank) :
    Triple Env (fun _ => True) (Banked P) getDev
      fun a w => a = d.setBank a.bnBank ∧ Banked P w :=
  Triple.gets (banked_stable hP) (fun _ => (banked_stable hP).pure_and)
    fun w hw => ⟨h w hw.1, hw⟩

/-- ERDPT is written. -/
theorem triple_erdpt (p : BitVec 16) :
    Triple Env (fun _ => True) (Banked (Held d v)) (writeReg16 bank0.ERDPTL bank0.ERDPTH p)
      fun _ => Banked (Held d v) := by
  have hset : ∀ (c : Chip) (a : BitVec 5) (x : Byte), a = 0x00 ∨ a = 0x01 →
      (c.writeBanked 0 a x).ptr Chip.ERXRDPT = c.ptr Chip.ERXRDPT := by
    intro c a x ha
    rcases ha with rfl | rfl <;> rfl
  have hwrite : ∀ (r x : Byte), convertRegValToBank r = .bank_0 ∧ (regAddr r).ult 0x1B = true →
      regAddr r = 0x00 ∨ regAddr r = 0x01 →
      Triple Env (fun _ => True) (Banked (Held d v)) (writeReg r x) fun _ => Banked (Held d v) :=
    fun r x hr ha => triple_writeReg_bank0 (fun _ _ => bankEnv_of_env) held_stable held_blind
      held_stable hr fun w hw => ⟨hw.dev, (hset _ _ _ ha).trans hw.erxrdpt⟩
  exact Triple.bind (hwrite _ _ (by decide) (by decide)) fun _ => hwrite _ _ (by decide) (by decide)

/-- ERXRDPT is written: its low byte waits for the high one. -/
theorem triple_erxrdpt (p : BitVec 16) :
    Triple Env (fun _ => True) (Banked (Held d v)) (writeReg16 bank0.ERXRDPTL bank0.ERXRDPTH p)
      fun _ => Banked (Held d p) := by
  have hlow : Stable Env (fun _ => True) fun w => w.chip.erxrdptl = lo p ∧ Held d v w := by
    refine ⟨fun w w' h hw => ⟨?_, held_stable.env w w' h hw.2⟩, fun _ _ => trivial⟩
    rw [← hw.1]
    cases h with
    | chip hc => cases hc <;> rfl
    | handler he hc => rfl
    | lwip offered pbufs => rfl
    | hal b => rfl
  have hblind : Blind fun w => w.chip.erxrdptl = lo p ∧ Held d v w := by
    intro w w' h hw
    refine ⟨?_, held_blind w w' h hw.2⟩
    cases h with
    | spi hc => exact (Chip.rxSame_of_blind hc).2.2.trans hw.1
    | fetch off hc hs => exact hs.elim
    | store off bs hs => exact hs.elim
    | idle => exact hw.1
    | sel s => exact hw.1
    | cache b => exact hw.1
  refine Triple.bind (M := fun _ => Banked fun w => w.chip.erxrdptl = lo p ∧ Held d v w)
    (triple_writeReg_bank0 (fun _ _ => bankEnv_of_env) held_stable held_blind hlow (by decide)
      fun w hw => ⟨rfl, hw.dev, hw.erxrdpt⟩) fun _ => ?_
  refine triple_writeReg_bank0 (fun _ _ => bankEnv_of_env) hlow hblind held_stable (by decide)
    fun w hw => ⟨hw.2.dev, ?_⟩
  show word (hi p) w.chip.erxrdptl = p
  rw [hw.1, word_hi_lo]

/-- A read stores what it fetched, or nothing. -/
theorem triple_spiReadTraced (off n : Nat) :
    Triple Env (fun _ => True) (Banked (HeldOpen d v)) (spiReadTraced off n)
      fun r w => (∀ bs, r = some bs → bs.length = n) ∧ Banked (HeldOpen (d.fetch off r) v) w := by
  have hkeep : KeepsBank (fun _ => True) (spiReadTraced off n) := by
    refine .of_same fun t => Keeps.act fun w => ?_
    dsimp only
    split
    · exact ⟨rfl, Chip.bsel_readBuffer n w.chip, routed_transact_none⟩
    · exact ⟨rfl, rfl, .rfl⟩
  refine Triple.conseq (banked hkeep (Q := fun r w => (∀ bs, r = some bs → bs.length = n) ∧
    HeldOpen (d.fetch off r) v w) (Triple.act heldOpen_stable
      (fun _ => heldOpen_stable.pure_and) fun w hw => ?_)) (fun _ hw => hw)
    fun _ _ hw => ⟨hw.1.1, hw.1.2, hw.2⟩
  dsimp only
  split
  · refine ⟨fun bs hbs => ?_, hw.1, ?_, ?_⟩
    · rw [← Option.some.inj hbs]
      exact Chip.length_readBuffer n w.chip
    · exact congrArg (fun d' : Dev => d'.store off (w.chip.readBuffer n).1) hw.2.dev
    · exact ((Chip.rxSame_readBuffer n w.chip).ptr (by decide) (by decide)).trans hw.2.erxrdpt
  · exact ⟨nofun, hw⟩

/-- A field is copied. -/
theorem triple_copyField (off : Nat) (x : Dev → BitVec 16) (hx : ∀ d b, x (d.setBank b) = x d) :
    Triple Env (fun _ => True) (Banked (HeldOpen d v)) (modifyDev fun d => d.setU16 off (x d))
      fun _ => Banked (HeldOpen (d.setU16 off (x d)) v) := by
  refine banked (.of_same fun t => Keeps.modifyDev_setU16 off x)
    (Triple.modify heldOpen_stable (fun _ => heldOpen_stable) fun w hw => ⟨hw.1, ?_, hw.2.erxrdpt⟩)
  have hxw : x w.dev = x d := by
    rw [hw.2.dev]
    exact hx d _
  dsimp only
  rw [hxw]
  exact congrArg (fun d' : Dev => d'.setU16 off (x d)) hw.2.dev

/-- The length check returns whether the length was accepted. -/
theorem triple_checkPktLen_held :
    Triple Env (fun _ => True) (Banked (HeldOpen d v)) checkPktLen fun r w =>
      r = decide ((d.u16 rxPktLen).toNat < 1518) ∧
        Banked (HeldOpen (if 1518 ≤ (d.u16 rxPktLen).toNat then d.setU16 rxPktLen 0 else d) v) w := by
  refine (triple_lengthCheck (P := fun d => Banked (HeldOpen d v))
    (fun _ => banked_stable heldOpen_stable) (fun w hw => by rw [hw.1.2.dev, Dev.u16_setBank])
    (triple_copyField rxPktLen (fun _ => 0) fun _ _ => rfl)).conseq (fun _ hw => hw)
    fun r w hw => ⟨?_, hw.2⟩
  rw [Bool.eq_iff_iff, hw.1, decide_eq_true_iff]

/-- A read that succeeded fetched as many bytes as it asked for. -/
structure Reads.Sized (r : Reads) (n : Nat) : Prop where
  nxtPktAddr : ∀ bs, r.nxtPktAddr = some bs → bs.length = 2
  rxStatVect : ∀ bs, r.rxStatVect = some bs → bs.length = 4
  data : ∀ bs, r.data = some bs → bs.length = n

/-- What a reception leaves, whatever its reads do. -/
def Left (d : Dev) (r : Bool × Reads) (w : World) : Prop :=
  (r.1 = decide (((afterHeader d r.2).u16 rxPktLen).toNat < 1518) ∧
    r.2.Sized ((afterCheck d r.2).u16 rxPktLen).toNat) ∧
    Banked (Held (afterReads d r.2)
      (lockPointer (afterReads d r.2) ((afterReads d r.2).u16 ptrAddr))) w

theorem triple_etherReceiveTraced :
    Triple Env (fun _ => True) (Banked (Held d v)) etherReceiveTraced fun r => Left d r := by
  unfold etherReceiveTraced
  refine Triple.bind (triple_getDev_held held_stable fun _ hw => hw.dev) fun dev => ?_
  refine Triple.of_pure fun _ => ?_
  refine Triple.bind (triple_erdpt _) fun _ => ?_
  refine Triple.bind (M := fun _ => Banked (HeldOpen d v)) ?_ fun _ => ?_
  · exact banked (.of_same fun _ => Keeps.spiOpen _)
      (Triple.modify held_stable (fun _ => heldOpen_stable) fun w hw => ⟨rfl, hw.dev, hw.erxrdpt⟩)
  refine Triple.bind (triple_spiReadTraced nxtPktAddr 2) fun nxt => Triple.of_pure fun hnxt => ?_
  refine Triple.bind (triple_copyField ptrAddr (fun d => d.u16 nxtPktAddr) fun _ _ => rfl) fun _ => ?_
  refine Triple.bind (triple_spiReadTraced rxStatVect 4) fun stat => Triple.of_pure fun hstat => ?_
  refine Triple.bind (triple_copyField rxPktLen (fun d => d.u16 rxStatVect) fun _ _ => rfl) fun _ => ?_
  refine Triple.bind triple_checkPktLen_held fun ret => Triple.of_pure fun hret => ?_
  refine Triple.bind (triple_getDev_held heldOpen_stable fun _ hw => hw.2.dev) fun dev => ?_
  refine Triple.of_pure fun hdev => ?_
  refine Triple.bind (triple_spiReadTraced rxData _) fun data => Triple.of_pure fun hdata => ?_
  refine Triple.bind (M := fun _ => Banked (Held (afterReads d ⟨nxt, stat, data⟩) v)) ?_ fun _ => ?_
  · exact banked (.of_same fun _ => Keeps.spiClose)
      (Triple.modify heldOpen_stable (fun _ => held_stable) fun w hw => ⟨hw.2.dev, hw.2.erxrdpt⟩)
  refine Triple.bind (triple_getDev_held held_stable fun _ hw => hw.dev) fun dev' => ?_
  refine Triple.of_pure fun hdev' => ?_
  have hlock : lockPointer dev' (dev'.u16 ptrAddr) =
      lockPointer (afterReads d ⟨nxt, stat, data⟩)
        ((afterReads d ⟨nxt, stat, data⟩).u16 ptrAddr) := by
    rw [hdev']
    rfl
  rw [hlock]
  have hdata' : ∀ bs, data = some bs → bs.length =
      ((afterCheck d ⟨nxt, stat, data⟩).u16 rxPktLen).toNat := fun bs hbs => by
    rw [hdata bs hbs, hdev]
    rfl
  refine Triple.bind (triple_erxrdpt _) fun _ => ?_
  exact Triple.conseq (Triple.pure (Q := Left d) (banked_stable held_stable).pure_and)
    (fun _ hw => ⟨⟨hret, hnxt, hstat, hdata'⟩, hw⟩) fun _ _ hw => hw

/-! ## what a caller may rely on -/

/-- The call reports success only if its reads succeeded, and a header that was
not read moves neither `ptrAddr` nor ERXRDPT. -/
structure FaultSafe (r : Bool × Reads) (w w' : World) : Prop where
  returns : r.1 = true → r.2.nxtPktAddr.isSome = true ∧ r.2.rxStatVect.isSome = true ∧
    (w'.dev.u16 rxPktLen ≠ 0 → r.2.data.isSome = true)
  keeps : r.2.nxtPktAddr = none ∨ r.2.rxStatVect = none →
    w'.dev.u16 ptrAddr = w.dev.u16 ptrAddr ∧
      w'.chip.ptr Chip.ERXRDPT = w.chip.ptr Chip.ERXRDPT

/-- The next-packet pointer in `rxPkt` after the first read: the one fetched, or
the one of the frame before. -/
def Reads.next (r : Reads) (d : Dev) : BitVec 16 :=
  (d.fetch Enc28j60.nxtPktAddr r.nxtPktAddr).u16 Enc28j60.nxtPktAddr

/-- The length in `rxPkt` after the second read, fetched or of the frame before. -/
def Reads.length (r : Reads) (d : Dev) : BitVec 16 :=
  (d.fetch Enc28j60.rxStatVect r.rxStatVect).u16 Enc28j60.rxStatVect

/-- Outcomes that do no harm, with ERXRDPT at `v` before the call: the header was
read, and the payload too if there is one to read; or the stale header is too
long to be accepted, and its pointer is where the driver already was. -/
def Reads.Harmless (r : Reads) (d : Dev) (v : BitVec 16) : Prop :=
  if r.nxtPktAddr.isSome = true ∧ r.rxStatVect.isSome = true then
    r.data.isSome = true ∨ r.length d = 0 ∨ 1518 ≤ (r.length d).toNat
  else
    1518 ≤ (r.length d).toNat ∧ r.next d = d.u16 ptrAddr ∧ lockPointer d (r.next d) = v

section Fields

variable {r : Reads} {n : Nat} (hs : r.Sized n)
include hs

/-- The first read reaches the pointer field only. -/
theorem u16_fetch_nxtPktAddr {b : Nat} (hb : 2 ≤ b) :
    (d.fetch nxtPktAddr r.nxtPktAddr).u16 b = d.u16 b := by
  cases h : r.nxtPktAddr with
  | none => rfl
  | some bs =>
      refine Dev.u16_store_of_disjoint (.inr ?_)
      rw [hs.nxtPktAddr bs h]
      exact hb

/-- The second reaches the status vector. -/
theorem u16_fetch_rxStatVect {b : Nat} (hb : b + 2 ≤ 2 ∨ 6 ≤ b) :
    (d.fetch rxStatVect r.rxStatVect).u16 b = d.u16 b := by
  cases h : r.rxStatVect with
  | none => rfl
  | some bs =>
      refine Dev.u16_store_of_disjoint ?_
      rw [hs.rxStatVect bs h]
      exact hb

/-- The length field does not depend on the rest of the record. -/
theorem length_congr {d' : Dev} (h : d'.u16 rxStatVect = d.u16 rxStatVect) :
    (d'.fetch rxStatVect r.rxStatVect).u16 rxStatVect = r.length d := by
  unfold Reads.length
  cases hr : r.rxStatVect with
  | none => exact h
  | some bs =>
      match bs, hs.rxStatVect bs hr with
      | [l, h', s0, s1], _ =>
          exact (Dev.u16_store d' rxStatVect l h' [s0, s1]).trans
            (Dev.u16_store d rxStatVect l h' [s0, s1]).symm

theorem afterHeader_rxPktLen : (afterHeader d r).u16 rxPktLen = r.length d := by
  unfold afterHeader
  rw [Dev.u16_setU16]
  refine length_congr hs ?_
  rw [Dev.u16_setU16_of_disjoint (.inl (by decide)), u16_fetch_nxtPktAddr hs (by decide)]

theorem afterHeader_ptrAddr : (afterHeader d r).u16 ptrAddr = r.next d := by
  unfold afterHeader
  rw [Dev.u16_setU16_of_disjoint (.inr (by decide)), u16_fetch_rxStatVect hs (by decide),
    Dev.u16_setU16]
  rfl

theorem afterCheck_rxPktLen :
    (afterCheck d r).u16 rxPktLen = if 1518 ≤ (r.length d).toNat then 0 else r.length d := by
  unfold afterCheck
  dsimp only
  rw [afterHeader_rxPktLen hs]
  split
  · exact Dev.u16_setU16 _ _ _
  · exact afterHeader_rxPktLen hs

theorem afterCheck_ptrAddr : (afterCheck d r).u16 ptrAddr = r.next d := by
  unfold afterCheck
  dsimp only
  split
  · rw [Dev.u16_setU16_of_disjoint (.inr (by decide)), afterHeader_ptrAddr hs]
  · exact afterHeader_ptrAddr hs

end Fields

/-- The payload is stored behind the length. -/
theorem afterReads_rxPktLen (d : Dev) (r : Reads) :
    (afterReads d r).u16 rxPktLen = (afterCheck d r).u16 rxPktLen := by
  unfold afterReads
  cases r.data with
  | none => rfl
  | some bs => exact Dev.u16_store_of_disjoint (.inl (by decide))

theorem lockPointer_afterReads (d : Dev) (r : Reads) (p : BitVec 16) :
    lockPointer (afterReads d r) p = lockPointer d p := by
  have hfetch : ∀ (d : Dev) (off : Nat) (x : Option (List Byte)),
      (d.fetch off x).rxBufStartAddr = d.rxBufStartAddr ∧
        (d.fetch off x).rxBufEndAddr = d.rxBufEndAddr := by
    intro d off x
    cases x <;> exact ⟨rfl, rfl⟩
  have hhead : (afterHeader d r).rxBufStartAddr = d.rxBufStartAddr ∧
      (afterHeader d r).rxBufEndAddr = d.rxBufEndAddr :=
    ⟨(hfetch _ rxStatVect _).1.trans (hfetch d _ _).1,
      (hfetch _ rxStatVect _).2.trans (hfetch d _ _).2⟩
  have hcheck : (afterCheck d r).rxBufStartAddr = d.rxBufStartAddr ∧
      (afterCheck d r).rxBufEndAddr = d.rxBufEndAddr := by
    unfold afterCheck
    dsimp only
    split <;> exact hhead
  unfold lockPointer afterReads
  rw [(hfetch _ _ _).1, (hfetch _ _ _).2, hcheck.1, hcheck.2]

/-- **Failed SPI reads.**  Whatever pattern of successes and failures the reads of
a call meet, and whatever goes on beside it, the call is safe just when the
outcomes are harmless. -/
theorem faultSafe_iff {w w' : World} {r : Bool × Reads} (hw : Operated w)
    (h : Steps Env (etherReceiveTraced, w) (pure r, w')) :
    etherReceive = (etherReceiveTraced >>= fun r => pure r.1) ∧
      (FaultSafe r w w' ↔ r.2.Harmless w.dev (w.chip.ptr Chip.ERXRDPT)) := by
  refine ⟨etherReceive_eq, ?_⟩
  obtain ⟨⟨t, ht⟩, -⟩ := operated_inv hw
  have hheld : Banked (Held w.dev (w.chip.ptr Chip.ERXRDPT)) w := ⟨⟨rfl, rfl⟩, t, ht, trivial⟩
  obtain ⟨⟨hret, hs⟩, hleft, -⟩ :=
    ((triple_etherReceiveTraced w hheld).steps h w' .refl).2
  rw [afterHeader_rxPktLen hs] at hret
  have hlen : w'.dev.u16 rxPktLen =
      if 1518 ≤ (r.2.length w.dev).toNat then 0 else r.2.length w.dev := by
    rw [hleft.dev, Dev.u16_setBank, afterReads_rxPktLen, afterCheck_rxPktLen hs]
  unfold Reads.Harmless
  by_cases hhead : r.2.nxtPktAddr.isSome = true ∧ r.2.rxStatVect.isSome = true
  · rw [if_pos hhead]
    have hkeeps : ¬ (r.2.nxtPktAddr = none ∨ r.2.rxStatVect = none) := by
      rintro (hn | hn)
      · rw [hn] at hhead
        exact absurd hhead.1 (by decide)
      · rw [hn] at hhead
        exact absurd hhead.2 (by decide)
    constructor
    · intro hsafe
      by_contra hcond
      rw [not_or, not_or] at hcond
      obtain ⟨hdata, hzero, hbig⟩ := hcond
      have htrue : r.1 = true := by
        rw [hret]
        exact decide_eq_true (by omega)
      rw [if_neg hbig] at hlen
      refine hdata ((hsafe.returns htrue).2.2 ?_)
      rwa [hlen]
    · intro hcond
      refine ⟨fun htrue => ⟨hhead.1, hhead.2, fun hne => ?_⟩, fun hn => absurd hn hkeeps⟩
      rw [hret] at htrue
      have hsmall := of_decide_eq_true htrue
      rw [if_neg (by omega)] at hlen
      rw [hlen] at hne
      rcases hcond with hdata | hzero | hbig
      · exact hdata
      · exact absurd hzero hne
      · omega
  · rw [if_neg hhead]
    have hnone : r.2.nxtPktAddr = none ∨ r.2.rxStatVect = none := by
      by_contra hcond
      rw [not_or, ← Ne, ← Ne, Option.ne_none_iff_isSome, Option.ne_none_iff_isSome] at hcond
      exact hhead hcond
    -- a header that is refused is followed by an empty payload read
    have hptr : 1518 ≤ (r.2.length w.dev).toNat → w'.dev.u16 ptrAddr = r.2.next w.dev ∧
        w'.chip.ptr Chip.ERXRDPT = lockPointer w.dev (r.2.next w.dev) := by
      intro hbig
      have hsame : (afterReads w.dev r.2).u16 ptrAddr = r.2.next w.dev := by
        rw [← afterCheck_ptrAddr hs]
        unfold afterReads
        cases hd : r.2.data with
        | none => rfl
        | some bs =>
            have hbs := hs.data bs hd
            rw [afterCheck_rxPktLen hs, if_pos hbig] at hbs
            rw [List.length_eq_zero_iff.mp hbs]
            exact Dev.u16_store_of_disjoint (.inr (by decide))
      refine ⟨?_, ?_⟩
      · rw [hleft.dev, Dev.u16_setBank, hsame]
      · rw [hleft.erxrdpt, hsame, lockPointer_afterReads]
    constructor
    · intro hsafe
      have hbig : 1518 ≤ (r.2.length w.dev).toNat := by
        by_contra hsmall
        have htrue : r.1 = true := by
          rw [hret]
          exact decide_eq_true (by omega)
        have hret' := hsafe.returns htrue
        exact hhead ⟨hret'.1, hret'.2.1⟩
      have hkeep := hsafe.keeps hnone
      rw [(hptr hbig).1, (hptr hbig).2] at hkeep
      exact ⟨hbig, hkeep⟩
    · rintro ⟨hbig, hnext, hlock⟩
      refine ⟨fun htrue => ?_, fun _ => ?_⟩
      · rw [hret] at htrue
        have := of_decide_eq_true htrue
        omega
      · rw [(hptr hbig).1, (hptr hbig).2]
        exact ⟨hnext, hlock⟩

/-- An empty header that is read without a failure. -/
theorem faultSafe_iff_powerOn :
    ∃ w w' r, Operated w ∧ Steps Env (etherReceiveTraced, w) (pure r, w') ∧ FaultSafe r w w' := by
  have hrun : ((run (strtDr 1) World.powerOn).bind fun x =>
      (run etherReceiveTraced x.2).map fun y =>
        (y.1.2.nxtPktAddr, y.1.2.rxStatVect, y.1.2.data)) =
      some (some [0, 0], some [0, 0, 0, 0], some []) := by decide +kernel
  simp only [Option.bind_eq_some_iff, Option.map_eq_some_iff, Prod.mk.injEq] at hrun
  obtain ⟨⟨_, w⟩, hw, ⟨r, w'⟩, hr, hnxt, hstat, hdata⟩ := hrun
  have hop : Operated w := .start ⟨rfl, rfl, rfl⟩ rfl (steps_of_run Env hw)
  have hsteps := steps_of_run Env hr
  refine ⟨w, w', r, hop, hsteps, (faultSafe_iff hop hsteps).2.mpr ?_⟩
  unfold Reads.Harmless
  rw [hnxt, hstat, hdata]
  exact .inl rfl

/-- All three reads fail in the first reception, and it reports success. -/
theorem not_faultSafe_failed :
    ¬ ∀ (w w' : World) (r : Bool × Reads), Operated w →
      Steps Env (etherReceiveTraced, w) (pure r, w') → FaultSafe r w w' := by
  intro h
  have hrun : ((run (strtDr 1) World.powerOn).bind fun x =>
      (run etherReceiveTraced { x.2 with halOk := false }).map fun y =>
        (y.1.1, y.1.2.nxtPktAddr)) = some (true, none) := by decide +kernel
  simp only [Option.bind_eq_some_iff, Option.map_eq_some_iff, Prod.mk.injEq] at hrun
  obtain ⟨⟨_, w⟩, hw, ⟨r, w'⟩, hr, hret, hnxt⟩ := hrun
  have hop : Operated w := .start ⟨rfl, rfl, rfl⟩ rfl (steps_of_run Env hw)
  have hsteps : Steps Env (etherReceiveTraced, w) (pure r, w') :=
    .head (.env (.hal false)) (steps_of_run Env hr)
  have hsome := ((h w w' r hop hsteps).returns hret).1
  rw [show r.2.nxtPktAddr = none from hnxt] at hsome
  exact absurd hsome (by decide)

end Enc28j60
