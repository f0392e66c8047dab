import Enc28j60.Phy

/-!
# Enc28j60.Startup

What `enc28j60_strtDr` and its helpers program, without interference.

The driver's register writes are lists of writes to the register file
(`Chip.setRegs`), so what a register holds afterwards is the last write to it,
or what it held before.

* `seq_macInit` — the MAC and the station address;
* `seq_bufferInit` — the buffer pointers;
* `seq_phyInit` — the PHY, after the detour through bank 0 that `strtDr` makes.
-/

namespace Enc28j60

open Res

/-! ## register files -/

namespace Chip

/-- Write the registers of a list, one after the other. -/
def setRegs (c : Chip) (ws : List (BitVec 2 × BitVec 5 × Byte)) : Chip :=
  ws.foldl (fun x w => x.setReg w.1 w.2.1 w.2.2) c

@[simp] theorem setRegs_cons (c : Chip) (w : BitVec 2 × BitVec 5 × Byte)
    (ws : List (BitVec 2 × BitVec 5 × Byte)) :
    c.setRegs (w :: ws) = (c.setReg w.1 w.2.1 w.2.2).setRegs ws := rfl

theorem setRegs_append (c : Chip) (ws ws' : List (BitVec 2 × BitVec 5 × Byte)) :
    c.setRegs (ws ++ ws') = (c.setRegs ws).setRegs ws' :=
  List.foldl_append

/-- A register that is not written keeps its value. -/
theorem regs_setRegs_of_ne (ws : List (BitVec 2 × BitVec 5 × Byte)) (c : Chip) {b : BitVec 2}
    {a : BitVec 5} (h : ∀ w ∈ ws, ¬ (b = w.1 ∧ a = w.2.1)) : (c.setRegs ws).regs b a = c.regs b a := by
  induction ws generalizing c with
  | nil => rfl
  | cons w ws ih =>
      rw [setRegs_cons, ih _ fun w' hw' => h w' (List.mem_cons_of_mem _ hw')]
      exact if_neg (h w List.mem_cons_self)

/-- Registers that just take what is written. -/
def plain (b : BitVec 2) (a : BitVec 5) : Bool :=
  !(b == 0 && (a == 0x08 || a == 0x09 || a == 0x0C || a == 0x0D || a == 0x0E || a == 0x0F)) &&
    !(b == 1 && a == 0x19) && !(b == 2 && (a == 0x12 || a == 0x17 || a == 0x18 || a == 0x19)) &&
    !(b == 3 && a == 0x0A)

theorem writeBanked_of_plain (c : Chip) {b : BitVec 2} {a : BitVec 5} (h : plain b a = true)
    (v : Byte) : c.writeBanked b a v = c.setReg b a v := by
  have hcond : ¬ (b = 0 ∧ a = 0x0C) ∧ ¬ (b = 0 ∧ a = 0x0D) ∧ ¬ (b = 0 ∧ (a = 0x08 ∨ a = 0x09)) ∧
      ¬ (b = 0 ∧ (a = 0x0E ∨ a = 0x0F)) ∧ ¬ (b = 1 ∧ a = 0x19) ∧
      ¬ (b = 2 ∧ (a = 0x18 ∨ a = 0x19)) ∧ ¬ (b = 3 ∧ a = 0x0A) ∧ ¬ (b = 2 ∧ a = 0x12) ∧
      ¬ (b = 2 ∧ a = 0x17) := by
    revert a b
    decide
  obtain ⟨h1, h2, h3, h4, h5, h6, h7, h8, h9⟩ := hcond
  unfold writeBanked
  rw [if_neg h1, if_neg h2, if_neg h3, if_neg h4, if_neg h5, if_neg h6, if_neg h7, if_neg h8,
    if_neg h9]

/-- A register outside a set of keys, when only those are written. -/
theorem regs_setRegs (ws : List (BitVec 2 × BitVec 5 × Byte)) {ks : List (BitVec 2 × BitVec 5)}
    (hk : ∀ w ∈ ws, (w.1, w.2.1) ∈ ks) (c : Chip) {b : BitVec 2} {a : BitVec 5}
    (h : (b, a) ∉ ks) : (c.setRegs ws).regs b a = c.regs b a := by
  refine regs_setRegs_of_ne ws c fun w hw hba => h ?_
  rw [hba.1, hba.2]
  exact hk w hw

/-! ## PHY accesses as register writes -/

/-- The registers a PHY read writes. -/
def phyReadWrites (c : Chip) (addr : Byte) : List (BitVec 2 × BitVec 5 × Byte) :=
  [(2, 0x14, addr), (2, 0x12, (c.regs 2 0x12 ||| 0x01) &&& ~~~0x01)]

/-- The registers a PHY write writes. -/
def phyWriteWrites (addr : Byte) (v : BitVec 16) : List (BitVec 2 × BitVec 5 × Byte) :=
  [(2, 0x14, addr), (2, 0x16, lo v), (2, 0x17, hi v)]

/-- The registers a PHY read writes that finds bank 0 selected. -/
def phyStaleWrites (c : Chip) (addr : Byte) : List (BitVec 2 × BitVec 5 × Byte) :=
  [(0, 0x14, addr), (0, 0x12, c.regs 0 0x12 ||| 0x01), (2, 0x12, c.regs 2 0x12 &&& ~~~0x01)]

theorem miiRead_of_ne {c : Chip} (h : c.miregadr ≠ PHIR) :
    c.miiRead = { c with mird := c.phy c.miregadr, busy := c.latency } :=
  if_neg h

theorem phyRead_of_ne (c : Chip) {addr : Byte} (h : regAddr addr ≠ PHIR) :
    c.phyRead addr = { c.setRegs (phyReadWrites c addr) with
      mird := c.phy (regAddr addr), busy := 0 } := by
  have hread := miiRead_of_ne (c := (c.setReg 2 0x14 addr).setReg 2 0x12 (c.regs 2 0x12 ||| 0x01)) h
  unfold phyRead
  dsimp only
  rw [hread]
  unfold phyReadWrites setRegs setReg
  dsimp only [List.foldl]
  congr 1
  funext b' a'
  split
  · rfl
  · rfl

theorem phyWrite_eq (c : Chip) (addr : Byte) (v : BitVec 16) :
    c.phyWrite addr v = { c.setRegs (phyWriteWrites addr v) with
      phy := fun r => if r = regAddr addr then v else c.phy r, busy := 0 } := by
  have hlo : (((c.setReg 2 0x14 addr).setReg 2 0x16 (lo v)).setReg 2 0x17 (hi v)).regs 2 0x16
      = lo v := by simp [setReg]
  unfold phyWrite miiWrite
  rw [hlo, word_hi_lo]
  rfl

theorem phyReadStale_eq (c : Chip) (addr : Byte) :
    c.phyReadStale addr = { c.setRegs (phyStaleWrites c addr) with busy := 0 } := rfl

/-- The parts of the chip that programming its registers does not touch. -/
structure Quiet (c c' : Chip) : Prop where
  eie : c'.eie = c.eie
  eir : c'.eir = c.eir
  estat : c'.estat = c.estat
  econ2 : c'.econ2 = c.econ2
  econ1 : c'.econ1 = c.econ1
  epktcnt : c'.epktcnt = c.epktcnt
  latency : c'.latency = c.latency
  mem : c'.mem = c.mem

theorem Quiet.trans {c c' c'' : Chip} (h : Quiet c c') (h' : Quiet c' c'') : Quiet c c'' where
  eie := h'.eie.trans h.eie
  eir := h'.eir.trans h.eir
  estat := h'.estat.trans h.estat
  econ2 := h'.econ2.trans h.econ2
  econ1 := h'.econ1.trans h.econ1
  epktcnt := h'.epktcnt.trans h.epktcnt
  latency := h'.latency.trans h.latency
  mem := h'.mem.trans h.mem

theorem quiet_setRegs (ws : List (BitVec 2 × BitVec 5 × Byte)) (c : Chip) :
    Quiet c (c.setRegs ws) := by
  induction ws generalizing c with
  | nil => exact ⟨rfl, rfl, rfl, rfl, rfl, rfl, rfl, rfl⟩
  | cons w ws ih =>
      have hset : Quiet c (c.setReg w.1 w.2.1 w.2.2) := ⟨rfl, rfl, rfl, rfl, rfl, rfl, rfl, rfl⟩
      exact hset.trans (ih _)

theorem quiet_phyRead (c : Chip) {r : Byte} (h : regAddr r ≠ PHIR) :
    Quiet c (c.phyRead r) := by
  rw [phyRead_of_ne c h]
  exact (quiet_setRegs _ c).trans ⟨rfl, rfl, rfl, rfl, rfl, rfl, rfl, rfl⟩

theorem quiet_phyWrite (c : Chip) (addr : Byte) (v : BitVec 16) : Quiet c (c.phyWrite addr v) := by
  rw [phyWrite_eq]
  exact (quiet_setRegs _ c).trans ⟨rfl, rfl, rfl, rfl, rfl, rfl, rfl, rfl⟩

theorem quiet_phyReadStale (c : Chip) (addr : Byte) : Quiet c (c.phyReadStale addr) := by
  rw [phyReadStale_eq]
  exact (quiet_setRegs _ c).trans ⟨rfl, rfl, rfl, rfl, rfl, rfl, rfl, rfl⟩

end Chip

variable {b : Bank} {d : Dev} {c : Chip}

/-- A register of bank 1, 2 or 3 that holds what is written to it. -/
def isPlain (r : Byte) : Bool :=
  convertRegValToBank r != .bank_0 && Chip.plain (convertRegValToBank r).bits (regAddr r) &&
    Chip.stored (convertRegValToBank r).bits (regAddr r)

/-- From inside a bank, such a register is written. -/
theorem seq_write (h : b ≠ .undefBank) {r : Byte} (hr : isPlain r = true) (v : Byte) :
    Seq (.inside b) d c (writeReg r v) () (.inside (convertRegValToBank r)) d
      (c.setReg (convertRegValToBank r).bits (regAddr r) v) := by
  simp only [isPlain, Bool.and_eq_true, bne_iff_ne] at hr
  obtain ⟨⟨h0, hp⟩, hs⟩ := hr
  have hult : (regAddr r).ult 0x1B = true := by
    unfold Chip.stored at hs
    simp only [Bool.and_eq_true] at hs
    exact hs.1.1.1.1
  have hw := seq_writeReg_inside (b := b) (d := d) (c := c) h rfl h0 hult v
  rwa [Chip.writeBanked_of_plain _ hp] at hw

/-- From inside a bank, such a register is read. -/
theorem seq_read (h : b ≠ .undefBank) {r : Byte} (hr : isPlain r = true) :
    Seq (.inside b) d c (readMacMIIReg r) (c.regs (convertRegValToBank r).bits (regAddr r))
      (.inside (convertRegValToBank r)) d c := by
  simp only [isPlain, Bool.and_eq_true, bne_iff_ne] at hr
  obtain ⟨⟨h0, -⟩, hs⟩ := hr
  have hs' := hs
  unfold Chip.stored at hs'
  simp only [Bool.and_eq_true, Bool.not_eq_true', Bool.and_eq_false_iff, beq_eq_false_iff_ne]
    at hs'
  have hpoll : ¬ ((convertRegValToBank r).bits = 3 ∧ regAddr r = 0x0A) := fun hc => by
    rcases hs'.2 with hb | ha
    · exact hb hc.1
    · exact ha hc.2
  have hw := seq_readMacMIIReg_inside (b := b) (d := d) (c := c) h rfl h0 hs'.1.1.1.1 hpoll
  rwa [Chip.readBanked_stored _ hs] at hw

/-! ## the MAC -/

/-- What `enc2860_macInit` writes: the MAC's registers and the station address. -/
def macWrites (c : Chip) (d : Dev) : List (BitVec 2 × BitVec 5 × Byte) :=
  [(2, 0x09, c.regs 2 0x09 &&& ~~~((1 : Byte) <<< 7)),
   (2, 0x00, c.regs 2 0x00 ||| (((1 : Byte) <<< 3) ||| ((1 : Byte) <<< 2) ||| 0x01)),
   (2, 0x02, c.regs 2 0x02 |||
     (((7 : Byte) <<< 5) ||| ((1 : Byte) <<< 4) ||| ((1 : Byte) <<< 2) ||| 0x01)),
   (2, 0x0A, lo d.MxmPkSize), (2, 0x0B, hi d.MxmPkSize), (2, 0x04, 0x15), (2, 0x06, 0x12),
   (3, 0x01, d.mac 0), (3, 0x00, d.mac 1), (3, 0x03, d.mac 2), (3, 0x02, d.mac 3),
   (3, 0x05, d.mac 4), (3, 0x04, d.mac 5)]

theorem seq_macInit (h : b ≠ .undefBank) :
    Seq (.inside b) d c macInit () (.inside .bank_3) d (c.setRegs (macWrites c d)) := by
  have hne : ∀ r, convertRegValToBank r ≠ .undefBank := convertRegValToBank_ne_undef
  unfold macInit
  refine Seq.bind (seq_read h (by decide)) ?_
  refine Seq.bind (seq_write (hne _) (by decide) _) ?_
  refine Seq.bind (seq_read (hne _) (by decide)) ?_
  refine Seq.bind (seq_write (hne _) (by decide) _) ?_
  refine Seq.bind (seq_read (hne _) (by decide)) ?_
  refine Seq.bind (seq_write (hne _) (by decide) _) ?_
  refine Seq.bind seq_getDev ?_
  refine Seq.bind (Seq.bind (seq_write (hne _) (by decide) _)
    (seq_write (hne _) (by decide) _)) ?_
  refine Seq.bind (seq_write (hne _) (by decide) _) ?_
  refine Seq.bind (seq_write (hne _) (by decide) _) ?_
  refine Seq.bind (seq_write (hne _) (by decide) _) ?_
  refine Seq.bind (seq_write (hne _) (by decide) _) ?_
  refine Seq.bind (seq_write (hne _) (by decide) _) ?_
  refine Seq.bind (seq_write (hne _) (by decide) _) ?_
  refine Seq.bind (seq_write (hne _) (by decide) _) ?_
  exact (seq_write (hne _) (by decide) _).congr rfl ⟨rfl, rfl⟩ rfl rfl

/-! ## the buffer pointers -/

namespace Chip

/-- Both halves of ERXST: the receive write pointer follows. -/
theorem writeBanked_erxst (c : Chip) (v : BitVec 16) :
    (c.writeBanked 0 0x08 (lo v)).writeBanked 0 0x09 (hi v) =
      { (c.setReg 0 0x08 (lo v)).setReg 0 0x09 (hi v) with erxwrpt := v } := by
  have hptr : Chip.ptr ((c.setReg 0 0x08 (lo v)).setReg 0 0x09 (hi v)) ERXST = v := by
    simp [ptr, setReg, word_hi_lo]
  show { (c.setReg 0 0x08 (lo v)).setReg 0 0x09 (hi v) with
    erxwrpt := Chip.ptr ((c.setReg 0 0x08 (lo v)).setReg 0 0x09 (hi v)) ERXST } = _
  rw [hptr]

end Chip

/-- What `enc28j60_strtDr` writes to the buffer pointers. -/
def bufferWrites (d : Dev) : List (BitVec 2 × BitVec 5 × Byte) :=
  [(0, 0x08, lo d.rxBufStartAddr), (0, 0x09, hi d.rxBufStartAddr),
   (0, 0x00, lo (d.u16 ptrAddr)), (0, 0x01, hi (d.u16 ptrAddr)),
   (0, 0x0A, lo d.rxBufEndAddr), (0, 0x0B, hi d.rxBufEndAddr),
   (0, 0x0C, lo d.rxBufEndAddr), (0, 0x0D, hi d.rxBufEndAddr),
   (0, 0x04, lo d.txBufStartAddr), (0, 0x05, hi d.txBufStartAddr),
   (0, 0x06, lo d.txBufEndAddr), (0, 0x07, hi d.txBufEndAddr)]

/-- The chip with its buffer pointers programmed. -/
def Chip.buffers (c : Chip) (d : Dev) : Chip :=
  { c.setRegs (bufferWrites d) with
    erxwrpt := d.rxBufStartAddr, erxrdptl := lo d.rxBufEndAddr }

theorem seq_bufferInit {t : Trail} (ht : t.last ≠ .undefBank) :
    Seq t d c bufferInit () (.outside t.last) d (c.buffers d) := by
  have hst := seq_writeReg16_zero (d := d) (c := c) ht (show convertRegValToBank bank0.ERXSTL =
    .bank_0 ∧ convertRegValToBank bank0.ERXSTH = .bank_0 by decide) (by decide) d.rxBufStartAddr
  rw [show regAddr bank0.ERXSTL = 0x08 by decide, show regAddr bank0.ERXSTH = 0x09 by decide,
    Chip.writeBanked_erxst] at hst
  unfold bufferInit
  refine Seq.bind seq_getDev (Seq.bind hst ?_)
  refine Seq.bind (seq_writeReg16_zero (t := .outside t.last) ht (by decide) (by decide) _) ?_
  refine Seq.bind (seq_writeReg16_zero (t := .outside t.last) ht (by decide) (by decide) _) ?_
  refine Seq.bind (seq_writeReg16_zero (t := .outside t.last) ht (by decide) (by decide) _) ?_
  refine Seq.bind (seq_writeReg16_zero (t := .outside t.last) ht (by decide) (by decide) _) ?_
  exact (seq_writeReg16_zero (t := .outside t.last) ht (by decide) (by decide) _).congr rfl
    ⟨rfl, rfl⟩ rfl rfl

/-! ## the PHY -/

/-- The chip after a PHY access of `enc2860_phyInit`: the first read is not started,
so PHCON1 is rewritten from what the last identifier read left in MIRD. -/
def Chip.phyInit (c : Chip) : Chip :=
  let c1 := (c.phyReadStale phyReg.PHCON1).phyWrite phyReg.PHCON1 (c.mird ||| (1 <<< 8))
  (c1.phyRead phyReg.PHIE).phyWrite phyReg.PHIE (c1.phy 0x12 ||| ((1 <<< 1) ||| (1 <<< 4)))

theorem seq_phyInit {fuel : Nat} (hb : c.busy < fuel) (hf : c.latency < fuel) :
    Seq (.outside .bank_2) d c (phyInit fuel) () (.inside .bank_3) d c.phyInit := by
  have hin : ∀ b : Bank, ((Trail.inside b).access bank2.MIREGADR).last = .bank_2 ∧
      ((Trail.inside b).access bank2.MIREGADR).sel = 2 := fun b =>
    Trail.access_inside (k := .bank_2) (by decide) (by decide)
  unfold phyInit
  refine Seq.bind (seq_readPhyReg_stale hb _) ?_
  refine Seq.bind (seq_writePhyReg (t := .inside .bank_2) (by decide) (hin _).1 (hin _).2 ?_ _ _) ?_
  · exact hf
  refine Seq.bind (seq_readPhyReg (t := .inside .bank_3) (by decide) (hin _).1 (hin _).2 ?_ _) ?_
  · exact hf
  refine seq_writePhyReg (t := .inside .bank_2) (by decide) (hin _).1 (hin _).2 ?_ _ _
  rw [(Chip.quiet_phyRead _ (by decide)).latency]
  exact hf

/-! ## the whole start-up -/

/-- Polling ESTAT lets the oscillator settle. -/
theorem seq_waitClock {t : Trail} (ht : t.last ≠ .undefBank) {fuel : Nat} (hf : c.clk < fuel) :
    Seq t d c (waitClock fuel) () (.outside t.last) d { c with clk := 0 } := by
  have hpoll : ∀ (u : Trail) (x : Chip), u.last = t.last →
      Seq u d x (readEtherReg bank0.ESTAT) ((x.estat &&& 0xFE) ||| (if x.clk = 0 then 1 else 0))
        (.outside t.last) d { x with clk := x.clk - 1 } := by
    intro u x hu
    have haddr : Chip.addrOf (opcode.u8readControlRegister ||| (0x1F &&& bank0.ESTAT)) = 0x1D := by
      decide
    obtain ⟨hl, hs⟩ := u.access_zero (r := bank0.ESTAT) (by decide)
    refine (seq_receiveReg (y := { x with clk := x.clk - 1 }) (hu ▸ ht) ?_).congr rfl
      ⟨hl.trans hu, hs⟩ rfl rfl
    unfold Chip.readControl
    rw [haddr]
    simp [Chip.readReg, Chip.poll]
    exact ⟨rfl, rfl⟩
  induction fuel generalizing t c with
  | zero => omega
  | succ fuel ih =>
      have hbit : ∀ v : Byte, ((v &&& 0xFE) ||| 1).getLsbD 0 = true ∧
          ((v &&& 0xFE) ||| 0).getLsbD 0 = false := by decide
      unfold waitClock
      refine Seq.bind (Seq.bind (hpoll t c rfl) (Seq.pure _)) ?_
      by_cases hb : c.clk = 0
      · rw [if_pos hb, (hbit c.estat).1, if_neg (by decide)]
        refine (Seq.pure ()).congr rfl ⟨rfl, rfl⟩ rfl ?_
        rw [hb]
      · rw [if_neg hb, (hbit c.estat).2, if_pos (by decide)]
        exact ih (t := .outside t.last) (c := { c with clk := c.clk - 1 }) ht
          (by show c.clk - 1 < fuel; omega) hpoll

theorem seq_sftRst {t : Trail} : Seq t d c sftRst () (.outside t.last) d c.softReset := by
  refine seq_spiSend (s := 0) ?_ rfl rfl
  rw [Chip.command_softReset]
  unfold Chip.softReset Chip.select
  simp

/-- The chip after a soft reset, once its oscillator has settled. -/
def Chip.awake (c : Chip) : Chip := { c.softReset with clk := 0 }

/-- The PHY identifier, read when bank `b` was left for bank 0. -/
def Chip.firstRead (c : Chip) (b : Bank) : Chip :=
  if b = .bank_2 then c.phyReadStale phyReg.PHID2 else c.phyRead phyReg.PHID2

/-- The chip after the identifier reads of `enc28j60_strtDr`. -/
def Chip.identified (c : Chip) (b : Bank) : Chip :=
  (((c.firstRead b).phyRead phyReg.PHID2).phyRead phyReg.PHID1).phyRead phyReg.PHID2

/-- The chip after `enc2860_macInit` and `enc28j60_rxSetFilters`. -/
def Chip.configured (c : Chip) (d : Dev) : Chip :=
  c.setRegs (macWrites c d ++ [(1, 0x18, RX_UNICAST ||| RX_CRC_CHECK ||| RX_BROADCAST)])

/-- The chip with its interrupts and reception enabled. -/
def Chip.enabled (c : Chip) : Chip :=
  { c with eie := 0xFF, econ2 := 0x80, econ1 := c.econ1 ||| 0x04 }

theorem Chip.enabled_eq (c : Chip) :
    ({ c with eie := 0xFF, econ2 := 0x80, econ1 := c.econ1 ||| 0x04 } : Chip) = c.enabled := rfl

/-- The chip once `enc28j60_strtDr`, called with bank `b` cached, has programmed the
buffer pointers. -/
def Chip.buffered (c : Chip) (b : Bank) (d : Dev) : Chip :=
  (c.awake.identified b).buffers d

/-- The chip after `enc28j60_strtDr`. -/
def Chip.started (c : Chip) (b : Bank) (d : Dev) : Chip :=
  ((c.buffered b d).phyInit.configured d).enabled

theorem access_inside_miregadr (b : Bank) :
    ((Trail.inside b).access bank2.MIREGADR).last = .bank_2 ∧
      ((Trail.inside b).access bank2.MIREGADR).sel = 2 :=
  Trail.access_inside (k := .bank_2) (by decide) (by decide)

theorem Chip.quiet_firstRead (c : Chip) (b : Bank) : Quiet c (c.firstRead b) := by
  unfold firstRead
  split
  · exact quiet_phyReadStale c _
  · exact quiet_phyRead c (by decide)

theorem Chip.quiet_identified (c : Chip) (b : Bank) : Quiet c (c.identified b) :=
  (c.quiet_firstRead b).trans ((quiet_phyRead _ (by decide)).trans
    ((quiet_phyRead _ (by decide)).trans (quiet_phyRead _ (by decide))))

theorem Chip.quiet_buffers (c : Chip) (d : Dev) : Quiet c (c.buffers d) :=
  (quiet_setRegs _ c).trans ⟨rfl, rfl, rfl, rfl, rfl, rfl, rfl, rfl⟩

theorem Chip.quiet_phyInit (c : Chip) : Quiet c c.phyInit :=
  (quiet_phyReadStale c _).trans ((quiet_phyWrite _ _ _).trans
    ((quiet_phyRead _ (by decide)).trans (quiet_phyWrite _ _ _)))

/-- The first PHY read after a reset. -/
theorem seq_firstRead (h : b ≠ .undefBank) {fuel : Nat} (hb : c.busy < fuel)
    (hf : c.latency < fuel) :
    ∃ v, Seq (.outside b) d c (readPhyReg fuel phyReg.PHID2) v (.inside .bank_2) d
      (c.firstRead b) := by
  unfold Chip.firstRead
  by_cases h2 : b = .bank_2
  · subst h2
    exact ⟨_, seq_readPhyReg_stale hb _⟩
  · rw [if_neg h2]
    obtain ⟨hl, hs⟩ := Trail.access_of_ne (t := .outside b) (r := bank2.MIREGADR) (b := .bank_2)
      (by decide) (by decide) (Ne.symm h2)
    exact ⟨_, seq_readPhyReg (t := .outside b) h hl hs hf _⟩

/-- A PHY read whose value only goes to the log. -/
theorem seq_phyRead_discard {fuel : Nat} (hf : c.latency < fuel) (addr : Byte) :
    Seq (.inside .bank_2) d c (readPhyReg fuel addr) (c.phy (regAddr addr)) (.inside .bank_2) d
      (c.phyRead addr) :=
  seq_readPhyReg (t := .inside .bank_2) (by decide) (access_inside_miregadr _).1
    (access_inside_miregadr _).2 hf addr

theorem setBit_econ2 (x : Chip) (h : x.econ2 = 0x80) (s : BitVec 2) :
    (x.select s).bitFieldSet (regAddr bank0.ECON2) (1 <<< 7) = { x with econ2 := 0x80 }.select s := by
  have hr : regAddr bank0.ECON2 = 0x1E := by decide
  have hv : (x.select s).fieldValue 0x1E = 0x80 := h
  rw [hr]
  unfold Chip.bitFieldSet
  rw [hv]
  rfl

/-- `enc28j60_strtDr` from any cached bank. -/
theorem seq_strtDr {t : Trail} (ht : t.last ≠ .undefBank) {fuel : Nat} (hclk : c.clk < fuel)
    (hb : c.busy < fuel) (hf : c.latency < fuel) :
    Seq t d c (strtDr fuel) () (.outside .bank_1) d (c.started t.last d) := by
  let c0 := c.awake
  let c1 := c0.identified t.last
  let c2 := c1.buffers d
  let c3 := c2.phyInit
  let c4 := c3.configured d
  obtain ⟨v, hfirst⟩ := seq_firstRead (b := t.last) (d := d) (c := c0) ht hb hf
  have hlat : ∀ {x : Chip}, Chip.Quiet c0 x → x.latency < fuel := fun hq => by
    rw [hq.latency]
    exact hf
  have h1 := c0.quiet_firstRead t.last
  have h2 := h1.trans (Chip.quiet_phyRead _ (r := phyReg.PHID2) (by decide))
  have h3 := h2.trans (Chip.quiet_phyRead _ (r := phyReg.PHID1) (by decide))
  have hid : Chip.Quiet c0 c1 := c0.quiet_identified t.last
  have hq4 : Chip.Quiet c0 c4 :=
    ((hid.trans (c1.quiet_buffers d)).trans c2.quiet_phyInit).trans (Chip.quiet_setRegs _ c3)
  have hmac : Seq (.inside .bank_3) d c3 macInit () (.inside .bank_3) d
      (c3.setRegs (macWrites c3 d)) := seq_macInit (by decide)
  have hfilter : Seq (.inside .bank_3) d (c3.setRegs (macWrites c3 d))
      (rxSetFilters (RX_UNICAST ||| RX_CRC_CHECK ||| RX_BROADCAST)) () (.inside .bank_1) d c4 := by
    refine (seq_write (by decide) (by decide) _).congr rfl ⟨rfl, rfl⟩ rfl ?_
    unfold c4 Chip.configured
    rw [Chip.setRegs_append]
    rfl
  unfold strtDr
  refine Seq.bind seq_sftRst (Seq.bind (seq_delayMs 1) ?_)
  refine Seq.bind (seq_waitClock (t := .outside t.last) ht hclk) ?_
  refine Seq.bind (Seq.bind hfirst (Seq.pure _)) ?_
  refine Seq.bind (Seq.bind (seq_phyRead_discard (hlat h1) _) (Seq.pure _)) ?_
  refine Seq.bind (Seq.bind (seq_phyRead_discard (hlat h2) _)
    (Seq.bind (seq_phyRead_discard (hlat h3) _) (Seq.pure _))) ?_
  refine Seq.bind (seq_bufferInit (t := .inside .bank_2) (by decide)) ?_
  refine Seq.bind (seq_phyInit ?_ (hlat (hid.trans (c1.quiet_buffers d))))
    (Seq.bind hmac (Seq.bind hfilter ?_))
  · exact Nat.lt_of_le_of_lt (Nat.zero_le _) hf
  have heie := seq_writeCommon (t := .inside .bank_1) (d := d) (c := c4) (r := bank0.EIE)
    (v := 0xFF) (y := { c4 with eie := 0xFF }) (by decide) fun s => rfl
  have hinc := seq_BitFieldSet (t := .outside .bank_1) (d := d) (by decide)
    (setBit_econ2 { c4 with eie := 0xFF } hq4.econ2)
  have hrx := seq_BitFieldSet (t := .outside .bank_1) (d := d) (by decide)
    (setBit_econ1 { c4 with eie := 0xFF, econ2 := 0x80 } (v := 1 <<< 2) (by decide))
  refine Seq.bind (heie.congr rfl ⟨rfl, rfl⟩ rfl rfl) (Seq.bind (hinc.congr rfl ⟨rfl, rfl⟩ rfl rfl) ?_)
  exact hrx.congr rfl ⟨rfl, rfl⟩ rfl (Chip.enabled_eq c4)

end Enc28j60
