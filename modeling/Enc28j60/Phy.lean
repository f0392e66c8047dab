import Enc28j60.Sequential

/-!
# Enc28j60.Phy

PHY registers through the MII, without interference.

* `Chip.phyRead`, `Chip.phyWrite` — what one access makes of the chip;
* `seq_readPhyReg`, `seq_writePhyReg` — the driver's functions do just that when
  bank 2 can be entered;
* `seq_readPhyReg_stale` — when bank 2 is cached but bank 0 is selected, the read
  is never started and the driver returns what the previous one left in MIRD.
-/

namespace Enc28j60

open Res

variable {t : Trail} {d : Dev} {c : Chip}

/-! ## reading a MAC or MII register -/

/-- A MAC or MII register is read after its dummy byte. -/
theorem seq_readMacMIIReg (ht : t.last ≠ .undefBank) {r : Byte} (hr : (regAddr r).ult 0x1B = true)
    (hpoll : ¬ ((t.access r).sel = 3 ∧ regAddr r = 0x0A)) :
    Seq t d c (readMacMIIReg r) (c.readBanked (t.access r).sel (regAddr r)) (t.access r) d c := by
  refine seq_receiveReg ht ?_
  unfold Chip.readControl
  rw [(Chip.addrOf_or r).1]
  have hdummy : (Chip.isMacMii (c.select (t.access r).sel).bsel (regAddr r) &&
      (regAddr r).ult 0x1B && Nat.ble 2 1) = false := Bool.and_false _
  have hp : (c.select (t.access r).sel).poll (regAddr r) = c.select (t.access r).sel := by
    unfold Chip.poll
    rw [if_neg (Chip.ult_ne hr).2.2.1, Chip.bsel_select, if_neg hpoll]
  simp only [hdummy, hp, Bool.false_eq_true, if_false]
  rfl

/-- Registers that hold what was written to them. -/
def Chip.stored (b : BitVec 2) (a : BitVec 5) : Bool :=
  a.ult 0x1B && !(b == 0 && (a == 0x0E || a == 0x0F)) && !(b == 1 && a == 0x19) &&
    !(b == 2 && (a == 0x18 || a == 0x19)) && !(b == 3 && a == 0x0A)

theorem Chip.readBanked_stored (c : Chip) {b : BitVec 2} {a : BitVec 5}
    (h : Chip.stored b a = true) : c.readBanked b a = c.regs b a := by
  have hcond : a.ult 0x1B = true ∧ ¬ (b = 0 ∧ a = 0x0E) ∧ ¬ (b = 0 ∧ a = 0x0F) ∧
      ¬ (b = 1 ∧ a = 0x19) ∧ ¬ (b = 2 ∧ a = 0x18) ∧ ¬ (b = 2 ∧ a = 0x19) ∧
      ¬ (b = 3 ∧ a = 0x0A) := by
    revert a b
    decide
  obtain ⟨hult, h1, h2, h3, h4, h5, h6⟩ := hcond
  obtain ⟨g1, g2, g3, g4, g5⟩ := ult_ne hult
  unfold readBanked readReg
  rw [if_neg g1, if_neg g2, if_neg g3, if_neg g4, if_neg g5]
  simp only [bsel_select, if_neg h1, if_neg h2, if_neg h3, if_neg h4, if_neg h5, if_neg h6]
  rfl

/-! ## waiting for the MII -/

/-- Polling MISTAT lets a pending MII operation finish. -/
theorem seq_waitMii (hs : (t.access bank3.MISTAT).sel = 3) (ht : t.last ≠ .undefBank) {fuel : Nat}
    (hf : c.busy < fuel) :
    Seq t d c (waitMii fuel) () (t.access bank3.MISTAT) d { c with busy := 0 } := by
  have hpoll : ∀ (u : Trail) (x : Chip), u.last ≠ .undefBank → (u.access bank3.MISTAT).sel = 3 →
      Seq u d x (readMacMIIReg bank3.MISTAT) (if x.busy = 0 then 0 else 1)
        (u.access bank3.MISTAT) d { x with busy := x.busy - 1 } := by
    intro u x hu hsel
    have haddr : Chip.addrOf (opcode.u8readControlRegister ||| (0x1F &&& bank3.MISTAT)) = 0x0A := by
      decide
    refine seq_receiveReg hu ?_
    rw [hsel]
    unfold Chip.readControl
    rw [haddr]
    simp [Chip.readReg, Chip.poll]
    exact ⟨rfl, rfl⟩
  induction fuel generalizing t c with
  | zero => omega
  | succ fuel ih =>
      have hu := access_ne_undef ht bank3.MISTAT
      have haa := Trail.access_access t bank3.MISTAT
      unfold waitMii
      refine Seq.bind (Seq.bind (hpoll t c ht hs) (Seq.pure _)) ?_
      by_cases hb : c.busy = 0
      · rw [if_pos hb, if_neg (by decide)]
        refine (Seq.pure ()).congr rfl ⟨rfl, rfl⟩ rfl ?_
        rw [hb]
      · rw [if_neg hb, if_pos (by decide)]
        have hrec := ih (t := t.access bank3.MISTAT) (c := { c with busy := c.busy - 1 })
          (by rw [haa]; exact hs) hu (by show c.busy - 1 < fuel; omega)
        rw [haa] at hrec
        exact hrec

/-! ## one access -/

namespace Chip

/-- What reading PHY register `addr` makes of the chip: MIREGADR selects it, MIRD
holds what it held, MICMD.MIIRD is clear again. -/
def phyRead (c : Chip) (addr : Byte) : Chip :=
  let v := c.regs 2 0x12
  { ((c.setReg 2 0x14 addr).setReg 2 0x12 (v ||| 0x01)).miiRead with busy := 0 }.setReg 2 0x12
    ((v ||| 0x01) &&& ~~~0x01)

/-- What writing `v` to PHY register `addr` makes of the chip. -/
def phyWrite (c : Chip) (addr : Byte) (v : BitVec 16) : Chip :=
  { (((c.setReg 2 0x14 addr).setReg 2 0x16 (lo v)).setReg 2 0x17 (hi v)).miiWrite (hi v) with
    busy := 0 }

/-- What reading a PHY register makes of the chip when bank 0 is selected by mistake:
the address and the read strobe land in EDMADST and EDMAND. -/
def phyReadStale (c : Chip) (addr : Byte) : Chip :=
  { (c.setReg 0 0x14 addr).setReg 0 0x12 (c.regs 0 0x12 ||| 0x01) with busy := 0 }.setReg 2 0x12
    (c.regs 2 0x12 &&& ~~~0x01)

theorem writeBanked_micmd_set (c : Chip) (v : Byte) :
    c.writeBanked 2 0x12 (v ||| 0x01) = (c.setReg 2 0x12 (v ||| 0x01)).miiRead := by
  simp [writeBanked]

theorem writeBanked_micmd_clear (c : Chip) (v : Byte) :
    c.writeBanked 2 0x12 (v &&& ~~~0x01) = c.setReg 2 0x12 (v &&& ~~~0x01) := by
  simp [writeBanked]

@[simp] theorem miiRead_regs (c : Chip) : c.miiRead.regs = c.regs := by
  unfold miiRead
  split <;> rfl

@[simp] theorem miiRead_mird (c : Chip) : c.miiRead.mird = c.phy c.miregadr := by
  unfold miiRead
  split <;> rfl

@[simp] theorem miiRead_busy (c : Chip) : c.miiRead.busy = c.latency := by
  unfold miiRead
  split <;> rfl

/-- MIRD is read as two bytes. -/
theorem readBanked_mird (c : Chip) :
    word (c.readBanked 2 0x19) (c.readBanked 2 0x18) = c.mird := by
  have hh : c.readBanked 2 0x19 = hi c.mird := by simp [readBanked, readReg]; rfl
  have hl : c.readBanked 2 0x18 = lo c.mird := by simp [readBanked, readReg]; rfl
  rw [hh, hl, word_hi_lo]

end Chip

section Inside

variable {b k : Bank} {r : Byte}

/-- A read from inside a bank finds the register. -/
theorem seq_readMacMIIReg_inside (h : b ≠ .undefBank) (hb : convertRegValToBank r = k)
    (h0 : k ≠ .bank_0) (hr : (regAddr r).ult 0x1B = true)
    (hpoll : ¬ (k.bits = 3 ∧ regAddr r = 0x0A)) :
    Seq (.inside b) d c (readMacMIIReg r) (c.readBanked k.bits (regAddr r)) (.inside k) d c := by
  obtain ⟨hl, hs⟩ := Trail.access_inside (b := b) hb h0
  have hread := seq_readMacMIIReg (t := .inside b) (d := d) (c := c) h hr (by rwa [hs])
  rw [hs] at hread
  exact hread.congr rfl ⟨hl, hs⟩ rfl rfl

end Inside

/-- The rest of a PHY read once it is started: the result is in MIRD. -/
theorem seq_phyResult (hx : t.last = .bank_2) {fuel : Nat} (hf : c.busy < fuel) :
    Seq t d c (phyResult fuel) c.mird (.inside .bank_2) d
      ({ c with busy := 0 }.setReg 2 0x12 (c.regs 2 0x12 &&& ~~~0x01)) := by
  have ht : t.last ≠ .undefBank := by rw [hx]; decide
  obtain ⟨hl, hs⟩ := Trail.access_of_ne (t := t) (r := bank3.MISTAT) (b := .bank_3) (by decide)
    (by decide) (by rw [hx]; decide)
  have hwait : Seq t d c (waitMii fuel) () (.inside .bank_3) d { c with busy := 0 } :=
    (seq_waitMii hs ht hf).congr rfl ⟨hl, hs⟩ rfl rfl
  have hcmd := seq_readMacMIIReg_inside (b := .bank_3) (k := .bank_2) (r := bank2.MICMD) (d := d)
    (c := { c with busy := 0 }) (by decide) (by decide) (by decide) (by decide) (by decide)
  rw [Chip.readBanked_stored _ (by decide)] at hcmd
  have hclear := seq_writeReg_inside (b := .bank_2) (k := .bank_2) (r := bank2.MICMD) (d := d)
    (c := { c with busy := 0 }) (by decide) (by decide) (by decide) (by decide)
    (c.regs 2 0x12 &&& ~~~0x01)
  rw [show regAddr bank2.MICMD = 0x12 by decide, show Bank.bank_2.bits = 2 by decide,
    Chip.writeBanked_micmd_clear] at hclear
  refine Seq.bind (seq_delayMs 1) (Seq.bind hwait (Seq.bind hcmd (Seq.bind hclear ?_)))
  refine Seq.bind (seq_readMacMIIReg_inside (b := .bank_2) (k := .bank_2) (by decide) (by decide)
    (by decide) (by decide) (by decide)) ?_
  refine Seq.bind (seq_readMacMIIReg_inside (b := .bank_2) (k := .bank_2) (by decide) (by decide)
    (by decide) (by decide) (by decide)) ?_
  refine (Seq.pure _).congr ?_ ⟨rfl, rfl⟩ rfl rfl
  exact Chip.readBanked_mird _

theorem Chip.miregadr_setReg (c : Chip) (addr v : Byte) :
    ((c.setReg 2 0x14 addr).setReg 2 0x12 v).miregadr = regAddr addr := rfl

/-- The address of a PHY access, from a history that lets bank 2 be entered. -/
theorem seq_miregadr (ht : t.last ≠ .undefBank) (hl : (t.access bank2.MIREGADR).last = .bank_2)
    (hs : (t.access bank2.MIREGADR).sel = 2) (addr : Byte) :
    Seq t d c (writeReg bank2.MIREGADR addr) () (.inside .bank_2) d (c.setReg 2 0x14 addr) := by
  refine (seq_writeReg ht (by decide) addr).congr rfl ⟨hl, hs⟩ rfl ?_
  rw [hs]
  simp [Chip.writeBanked, show regAddr bank2.MIREGADR = 0x14 by decide]

/-- `enc28j60_readPhyReg`, from a history that lets bank 2 be entered. -/
theorem seq_readPhyReg (ht : t.last ≠ .undefBank) (hl : (t.access bank2.MIREGADR).last = .bank_2)
    (hs : (t.access bank2.MIREGADR).sel = 2) {fuel : Nat} (hf : c.latency < fuel) (addr : Byte) :
    Seq t d c (readPhyReg fuel addr) (c.phy (regAddr addr)) (.inside .bank_2) d
      (c.phyRead addr) := by
  have hcmd := seq_readMacMIIReg_inside (b := .bank_2) (k := .bank_2) (r := bank2.MICMD) (d := d)
    (c := c.setReg 2 0x14 addr) (by decide) (by decide) (by decide) (by decide) (by decide)
  rw [Chip.readBanked_stored _ (by decide)] at hcmd
  have hset := seq_writeReg_inside (b := .bank_2) (k := .bank_2) (r := bank2.MICMD) (d := d)
    (c := c.setReg 2 0x14 addr) (by decide) (by decide) (by decide) (by decide)
    (c.regs 2 0x12 ||| 0x01)
  rw [show regAddr bank2.MICMD = 0x12 by decide, show Bank.bank_2.bits = 2 by decide,
    Chip.writeBanked_micmd_set] at hset
  refine Seq.bind (seq_miregadr ht hl hs addr) (Seq.bind hcmd (Seq.bind hset ?_))
  refine (seq_phyResult rfl ?_).congr ?_ ⟨rfl, rfl⟩ rfl ?_
  · rw [Chip.miiRead_busy]
    exact hf
  · rw [Chip.miiRead_mird, Chip.miregadr_setReg]
    rfl
  · have hv : ((c.setReg 2 0x14 addr).setReg 2 0x12 (c.regs 2 0x12 ||| 0x01)).miiRead.regs 2 0x12
        = c.regs 2 0x12 ||| 0x01 := by
      rw [Chip.miiRead_regs]
      simp [Chip.setReg]
    rw [hv]
    rfl

/-- `enc28j60_writePhyReg`, from a history that lets bank 2 be entered. -/
theorem seq_writePhyReg (ht : t.last ≠ .undefBank) (hl : (t.access bank2.MIREGADR).last = .bank_2)
    (hs : (t.access bank2.MIREGADR).sel = 2) {fuel : Nat} (hf : c.latency < fuel) (addr : Byte)
    (v : BitVec 16) :
    Seq t d c (writePhyReg fuel addr v) () (.inside .bank_3) d (c.phyWrite addr v) := by
  have hlo := seq_writeReg_inside (b := .bank_2) (k := .bank_2) (r := bank2.MIWRL) (d := d)
    (c := c.setReg 2 0x14 addr) (by decide) (by decide) (by decide) (by decide) (lo v)
  have hhi := seq_writeReg_inside (b := .bank_2) (k := .bank_2) (r := bank2.MIWRH) (d := d)
    (c := (c.setReg 2 0x14 addr).setReg 2 0x16 (lo v)) (by decide) (by decide) (by decide)
    (by decide) (hi v)
  rw [show (c.setReg 2 0x14 addr).writeBanked Bank.bank_2.bits (regAddr bank2.MIWRL) (lo v) =
    (c.setReg 2 0x14 addr).setReg 2 0x16 (lo v) from rfl] at hlo
  refine Seq.bind (seq_miregadr ht hl hs addr) (Seq.bind (Seq.bind hlo hhi) ?_)
  refine Seq.bind (seq_delayMs 1) ?_
  obtain ⟨hl', hs'⟩ := Trail.access_inside (b := .bank_2) (r := bank3.MISTAT) (k := .bank_3)
    (by decide) (by decide)
  exact (seq_waitMii hs' (by decide) hf).congr rfl ⟨hl', hs'⟩ rfl rfl

/-- `enc28j60_readPhyReg` when bank 2 is cached and bank 0 selected. -/
theorem seq_readPhyReg_stale {fuel : Nat} (hf : c.busy < fuel) (addr : Byte) :
    Seq (.outside .bank_2) d c (readPhyReg fuel addr) c.mird (.inside .bank_2) d
      (c.phyReadStale addr) := by
  have hout : ∀ {r : Byte}, convertRegValToBank r = .bank_2 →
      ((Trail.outside .bank_2).access r).last = .bank_2 ∧
        ((Trail.outside .bank_2).access r).sel = 0 := fun h => Trail.access_of_eq h
  obtain ⟨hl, hs⟩ := hout (r := bank2.MIREGADR) (by decide)
  obtain ⟨hl', hs'⟩ := hout (r := bank2.MICMD) (by decide)
  have hadr : Seq (.outside .bank_2) d c (writeReg bank2.MIREGADR addr) () (.outside .bank_2) d
      (c.setReg 0 0x14 addr) := by
    refine (seq_writeReg (by decide) (by decide) addr).congr rfl ⟨hl, hs⟩ rfl ?_
    rw [hs]
    simp [Chip.writeBanked, show regAddr bank2.MIREGADR = 0x14 by decide]
  have hcmd := seq_readMacMIIReg (t := .outside .bank_2) (r := bank2.MICMD) (d := d)
    (c := c.setReg 0 0x14 addr) (by decide) (by decide) (by rw [hs']; decide)
  rw [hs', Chip.readBanked_stored _ (by decide)] at hcmd
  have hset : Seq (.outside .bank_2) d (c.setReg 0 0x14 addr)
      (writeReg bank2.MICMD (c.regs 0 0x12 ||| 0x01)) () (.outside .bank_2) d
      ((c.setReg 0 0x14 addr).setReg 0 0x12 (c.regs 0 0x12 ||| 0x01)) := by
    refine (seq_writeReg (by decide) (by decide) _).congr rfl ⟨hl', hs'⟩ rfl ?_
    rw [hs']
    simp [Chip.writeBanked, show regAddr bank2.MICMD = 0x12 by decide]
  have hcmd' : Seq (.outside .bank_2) d (c.setReg 0 0x14 addr) (readMacMIIReg bank2.MICMD)
      (c.regs 0 0x12) (.outside .bank_2) d (c.setReg 0 0x14 addr) :=
    hcmd.congr rfl ⟨hl', hs'⟩ rfl rfl
  refine Seq.bind hadr (Seq.bind hcmd' (Seq.bind hset ?_))
  exact seq_phyResult (c := (c.setReg 0 0x14 addr).setReg 0 0x12 (c.regs 0 0x12 ||| 0x01)) rfl hf

/-! ## what an access leaves alone -/

namespace Chip

/-- The chip after the host has seen PHY register `a`: reading PHIR acknowledges
the PHY interrupt. -/
def acked (c : Chip) (a : BitVec 5) : Chip :=
  if a = PHIR then
    { c with phy := fun r => if r = PHIR then c.phy r &&& 0xFFEB else c.phy r
             eir := c.eir &&& 0xEF }
  else c

/-- The MII's address and data registers. -/
def miiScratch (b : BitVec 2) (a : BitVec 5) : Prop := b = 2 ∧ (a = 0x14 ∨ a = 0x16 ∨ a = 0x17)

/-- Only MIREGADR, MIWR, MIRD and the bank bits may differ. -/
structure MiiOnly (c c' : Chip) : Prop where
  regs : ∀ b a, ¬ miiScratch b a → c'.regs b a = c.regs b a
  eie : c'.eie = c.eie
  eir : c'.eir = c.eir
  estat : c'.estat = c.estat
  econ2 : c'.econ2 = c.econ2
  econ1 : c'.econ1 &&& 0xFC = c.econ1 &&& 0xFC
  epktcnt : c'.epktcnt = c.epktcnt
  erxwrpt : c'.erxwrpt = c.erxwrpt
  erxrdptl : c'.erxrdptl = c.erxrdptl
  mem : c'.mem = c.mem

theorem MiiOnly.select {c c' : Chip} (h : MiiOnly c c') (s : BitVec 2) :
    MiiOnly c (c'.select s) where
  regs := h.regs
  eie := h.eie
  eir := h.eir
  estat := h.estat
  econ2 := h.econ2
  econ1 := by
    have hmask : ∀ (v : Byte) (s : BitVec 2),
        ((v &&& 0xFC) ||| s.setWidth 8) &&& 0xFC = v &&& 0xFC := by decide
    exact (hmask c'.econ1 s).trans h.econ1
  epktcnt := h.epktcnt
  erxwrpt := h.erxwrpt
  erxrdptl := h.erxrdptl
  mem := h.mem

theorem miiRead_eq (c : Chip) :
    c.miiRead = { c.acked c.miregadr with mird := c.phy c.miregadr, busy := c.latency } := by
  unfold miiRead acked
  split <;> rfl

theorem acked_setReg (c : Chip) (r : BitVec 5) (b : BitVec 2) (a : BitVec 5) (v : Byte) :
    (c.setReg b a v).acked r = (c.acked r).setReg b a v := by
  unfold acked
  split <;> rfl

@[simp] theorem acked_regs (c : Chip) (r : BitVec 5) : (c.acked r).regs = c.regs := by
  unfold acked
  split <;> rfl

theorem regAddr_setWidth (a : BitVec 5) : regAddr (a.setWidth 8) = a := by
  simp [regAddr]

/-- A PHY read beside what the chip does itself. -/
theorem phyRead_eq (c : Chip) (a : BitVec 5) :
    c.phyRead (a.setWidth 8) = { (c.acked a).setReg 2 0x14 (a.setWidth 8) with
      regs := fun b' a' => if b' = 2 ∧ a' = 0x12 then (c.regs 2 0x12 ||| 0x01) &&& ~~~0x01
        else ((c.acked a).setReg 2 0x14 (a.setWidth 8)).regs b' a'
      mird := c.phy a, busy := 0 } := by
  have hadr : ((c.setReg 2 0x14 (a.setWidth 8)).setReg 2 0x12 (c.regs 2 0x12 ||| 0x01)).miregadr
      = a := regAddr_setWidth a
  unfold phyRead
  dsimp only
  rw [miiRead_eq, hadr, acked_setReg, acked_setReg]
  unfold setReg
  congr 1
  funext b' a'
  dsimp only
  split <;> simp_all

/-- MICMD is as before once MIIRD has been set and cleared again. -/
theorem micmd_restored : ∀ v : Byte, v.getLsbD 0 = false → (v ||| 0x01) &&& ~~~0x01 = v := by
  decide

theorem miiOnly_phyRead {c : Chip} (h : (c.regs 2 0x12).getLsbD 0 = false) (a : BitVec 5) :
    MiiOnly (c.acked a) (c.phyRead (a.setWidth 8)) := by
  rw [phyRead_eq]
  refine ⟨fun b' a' hba => ?_, rfl, rfl, rfl, rfl, rfl, rfl, rfl, rfl, rfl⟩
  have h14 : ¬ (b' = 2 ∧ a' = 0x14) := fun hb => hba ⟨hb.1, Or.inl hb.2⟩
  simp only [micmd_restored _ h, setReg, if_neg h14, acked_regs]
  by_cases h12 : b' = 2 ∧ a' = 0x12
  · rw [if_pos h12, h12.1, h12.2]
  · rw [if_neg h12]

theorem phyRead_phy (c : Chip) (a : BitVec 5) :
    (c.phyRead (a.setWidth 8)).phy = (c.acked a).phy := by
  rw [phyRead_eq]
  rfl

theorem miiOnly_phyWrite (c : Chip) (addr : Byte) (v : BitVec 16) :
    MiiOnly c (c.phyWrite addr v) := by
  refine ⟨fun b' a' hba => ?_, rfl, rfl, rfl, rfl, rfl, rfl, rfl, rfl, rfl⟩
  have h14 : ¬ (b' = 2 ∧ a' = 0x14) := fun hb => hba ⟨hb.1, Or.inl hb.2⟩
  have h16 : ¬ (b' = 2 ∧ a' = 0x16) := fun hb => hba ⟨hb.1, Or.inr (Or.inl hb.2)⟩
  have h17 : ¬ (b' = 2 ∧ a' = 0x17) := fun hb => hba ⟨hb.1, Or.inr (Or.inr hb.2)⟩
  simp only [phyWrite, miiWrite, setReg, if_neg h14, if_neg h16, if_neg h17]

theorem phyWrite_phy (c : Chip) (a : BitVec 5) (v : BitVec 16) :
    (c.phyWrite (a.setWidth 8) v).phy = fun r => if r = a then v else c.phy r := by
  have hadr : Chip.miregadr (((c.setReg 2 0x14 (a.setWidth 8)).setReg 2 0x16 (lo v)).setReg 2 0x17
      (hi v)) = a := regAddr_setWidth a
  have hlo : ((((c.setReg 2 0x14 (a.setWidth 8)).setReg 2 0x16 (lo v)).setReg 2 0x17 (hi v)).regs
      2 0x16) = lo v := by simp [setReg]
  unfold phyWrite miiWrite
  rw [hadr, hlo, word_hi_lo]
  rfl

end Chip

/-! ## PHY registers -/

/-- The cached bank is the selected one. -/
def InStep (w : World) : Prop := w.dev.bnBank ≠ .undefBank ∧ w.chip.bsel = w.dev.bnBank.bits

theorem InStep.holds {w : World} (h : InStep w) : Agrees (.inside w.dev.bnBank) w.dev w.chip w :=
  agrees_self rfl h.2

theorem inStep_of_agrees {b : Bank} {w : World} (hb : b ≠ .undefBank)
    (h : Agrees (.inside b) d c w) : InStep w := by
  have hbank : w.dev.bnBank = b := by rw [h.dev]; rfl
  refine ⟨by rwa [hbank], ?_⟩
  rw [hbank, h.chip, Chip.bsel_select]
  rfl

section PhyAccess

variable {fuel : Nat} {w : World}

/-- A write in step: the selected PHY register, and nothing else but the MII. -/
theorem run_writePhyReg (hw : InStep w) (hf : w.chip.latency < fuel) (a : BitVec 5)
    (v : BitVec 16) :
    ∃ w', run (writePhyReg fuel (a.setWidth 8) v) w = some ((), w') ∧ InStep w' ∧
      (∀ r, w'.chip.phy r = if r = a then v else w.chip.phy r) ∧ Chip.MiiOnly w.chip w'.chip ∧
      w'.chip.latency = w.chip.latency := by
  obtain ⟨hl, hs⟩ := Trail.access_inside (b := w.dev.bnBank) (r := bank2.MIREGADR) (k := .bank_2)
    (by decide) (by decide)
  obtain ⟨w', hrun, hw', -⟩ := seq_writePhyReg (t := .inside w.dev.bnBank) hw.1 hl hs hf
    (a.setWidth 8) v w hw.holds
  refine ⟨w', hrun, inStep_of_agrees (by decide) hw', fun r => ?_, ?_, ?_⟩
  · rw [hw'.chip, Chip.select_phy, Chip.phyWrite_phy]
  · rw [hw'.chip]
    exact (Chip.miiOnly_phyWrite w.chip _ v).select _
  · rw [hw'.chip]
    rfl

/-- A read in step: the value of the selected PHY register, which is then acknowledged. -/
theorem run_readPhyReg (hw : InStep w) (hm : (w.chip.regs 2 0x12).getLsbD 0 = false)
    (hf : w.chip.latency < fuel) (a : BitVec 5) :
    ∃ w', run (readPhyReg fuel (a.setWidth 8)) w = some (w.chip.phy a, w') ∧ InStep w' ∧
      w'.chip.phy = (w.chip.acked a).phy ∧ Chip.MiiOnly (w.chip.acked a) w'.chip := by
  obtain ⟨hl, hs⟩ := Trail.access_inside (b := w.dev.bnBank) (r := bank2.MIREGADR) (k := .bank_2)
    (by decide) (by decide)
  obtain ⟨w', hrun, hw', -⟩ := seq_readPhyReg (t := .inside w.dev.bnBank) hw.1 hl hs hf
    (a.setWidth 8) w hw.holds
  rw [Chip.regAddr_setWidth] at hrun
  refine ⟨w', hrun, inStep_of_agrees (by decide) hw', ?_, ?_⟩
  · rw [hw'.chip, Chip.select_phy, Chip.phyRead_phy]
  · rw [hw'.chip]
    exact (Chip.miiOnly_phyRead hm a).select _

/-- **PHY register access.**  In step, with MIIRD clear and an MII that becomes
ready, `enc28j60_writePhyReg` writes the PHY register it names and no other, and
`enc28j60_readPhyReg` returns it.  The chip acknowledges PHIR when it is read;
apart from that neither changes a PHY register on a read, nor anything of the
chip but the MII's address and data registers and the bank bits. -/
theorem phy_access (hw : InStep w) (hm : (w.chip.regs 2 0x12).getLsbD 0 = false)
    (hf : w.chip.latency < fuel) (a : BitVec 5) (v : BitVec 16) :
    (∃ w', run (writePhyReg fuel (a.setWidth 8) v) w = some ((), w') ∧ InStep w' ∧
      (∀ r, w'.chip.phy r = if r = a then v else w.chip.phy r) ∧ Chip.MiiOnly w.chip w'.chip) ∧
    (∃ w', run (readPhyReg fuel (a.setWidth 8)) w = some (w.chip.phy a, w') ∧ InStep w' ∧
      w'.chip.phy = (w.chip.acked a).phy ∧ Chip.MiiOnly (w.chip.acked a) w'.chip) ∧
    ∀ b : BitVec 5, ∃ w', run (do
        writePhyReg fuel (a.setWidth 8) v
        readPhyReg fuel (b.setWidth 8)) w = some (if b = a then v else w.chip.phy b, w') := by
  obtain ⟨w1, hrun, hstep, hphy, honly, hlat⟩ := run_writePhyReg hw hf a v
  refine ⟨⟨w1, hrun, hstep, hphy, honly⟩, run_readPhyReg hw hm hf a, fun b => ?_⟩
  have hm1 : (w1.chip.regs 2 0x12).getLsbD 0 = false := by
    rw [honly.regs 2 0x12 (by unfold Chip.miiScratch; decide)]
    exact hm
  obtain ⟨w2, hrun2, -, -, -⟩ := run_readPhyReg hstep hm1 (by rw [hlat]; exact hf) b
  refine ⟨w2, ?_⟩
  rw [run_bind, hrun, Option.bind_some, hrun2, hphy b]

end PhyAccess

/-- PHCON1 at power-on. -/
theorem phy_access_powerOn : ∃ w', run (do
    writePhyReg 1 phyReg.PHCON1 0x0100
    readPhyReg 1 phyReg.PHCON1) World.powerOn = some (0x0100, w') :=
  (phy_access (w := World.powerOn) ⟨by decide, by decide⟩ (by decide) (by decide) 0x00 0x0100).2.2
    0x00

/-- A link change is pending in PHIR. -/
def phirPending : World :=
  { World.powerOn with chip := { Chip.powerOn with phy := fun _ => 0x0014 } }

/-- Reading PHIR is what acknowledges it. -/
theorem not_readPhyReg_unchanged :
    ¬ ∀ (fuel : Nat) (w : World) (a : BitVec 5), InStep w →
      (w.chip.regs 2 0x12).getLsbD 0 = false → w.chip.latency < fuel →
      ∃ w', run (readPhyReg fuel (a.setWidth 8)) w = some (w.chip.phy a, w') ∧
        ∀ r, w'.chip.phy r = w.chip.phy r := by
  intro h
  have hw : InStep phirPending := ⟨by decide, by decide⟩
  obtain ⟨w', hrun, hphy⟩ := h 1 phirPending Chip.PHIR hw (by decide) (by decide)
  obtain ⟨w2, hrun2, -, hphy2, -⟩ := run_readPhyReg hw (by decide) (by decide : 0 < 1) Chip.PHIR
  obtain rfl : w' = w2 := by
    rw [hrun] at hrun2
    exact (Prod.mk.inj (Option.some.inj hrun2)).2
  have hr := hphy Chip.PHIR
  rw [hphy2] at hr
  exact absurd hr (by decide)

end Enc28j60
