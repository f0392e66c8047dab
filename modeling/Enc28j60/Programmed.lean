import Enc28j60.Calls
import Enc28j60.Main
import Enc28j60.Startup

/-!
# Enc28j60.Programmed

What the chip holds when `enc28j60_strtDr` has returned.

* `programmed_iff` — the intended contents, and exactly which reset contents
  make them come about;
* `stationAddr_macInit` — the station address beside the interface's hardware
  address;
* `ready_iff` — a restart, beside the receive position the driver remembers.
-/

namespace Enc28j60

open Res

namespace Chip

variable {c : Chip} {b' : BitVec 2} {a : BitVec 5}

/-! ## what each part leaves alone -/

/-- The registers a PHY access in step may write. -/
def miiKeys : List (BitVec 2 × BitVec 5) := [(2, 0x14), (2, 0x12), (2, 0x16), (2, 0x17)]

/-- The registers any PHY access may write. -/
def phyKeys : List (BitVec 2 × BitVec 5) := (0, 0x14) :: (0, 0x12) :: miiKeys

theorem miiKeys_of_phyKeys (h : (b', a) ∉ phyKeys) : (b', a) ∉ miiKeys := fun hm =>
  h (List.mem_cons_of_mem _ (List.mem_cons_of_mem _ hm))

theorem regs_phyRead (c : Chip) {addr : Byte} (hne : regAddr addr ≠ PHIR)
    (h : (b', a) ∉ miiKeys) : (c.phyRead addr).regs b' a = c.regs b' a := by
  rw [phyRead_of_ne c hne]
  exact regs_setRegs (c.phyReadWrites addr) (by simp [phyReadWrites, miiKeys]) c h

theorem regs_phyWrite (c : Chip) (addr : Byte) (v : BitVec 16) (h : (b', a) ∉ miiKeys) :
    (c.phyWrite addr v).regs b' a = c.regs b' a := by
  rw [phyWrite_eq]
  exact regs_setRegs (phyWriteWrites addr v) (by simp [phyWriteWrites, miiKeys]) c h

theorem regs_phyReadStale (c : Chip) (addr : Byte) (h : (b', a) ∉ phyKeys) :
    (c.phyReadStale addr).regs b' a = c.regs b' a := by
  rw [phyReadStale_eq]
  exact regs_setRegs (c.phyStaleWrites addr) (by simp [phyStaleWrites, phyKeys, miiKeys]) c h

theorem regs_firstRead (c : Chip) (b : Bank) (h : (b', a) ∉ phyKeys) :
    (c.firstRead b).regs b' a = c.regs b' a := by
  unfold firstRead
  split
  · exact regs_phyReadStale c _ h
  · exact regs_phyRead c (by decide) (miiKeys_of_phyKeys h)

/-- The identifier reads after the first one are in step. -/
theorem regs_identified_firstRead (c : Chip) (b : Bank) (h : (b', a) ∉ miiKeys) :
    (c.identified b).regs b' a = (c.firstRead b).regs b' a := by
  unfold identified
  rw [regs_phyRead _ (by decide) h, regs_phyRead _ (by decide) h, regs_phyRead _ (by decide) h]

theorem regs_identified (c : Chip) (b : Bank) (h : (b', a) ∉ phyKeys) :
    (c.identified b).regs b' a = c.regs b' a := by
  rw [regs_identified_firstRead c b (miiKeys_of_phyKeys h), regs_firstRead c b h]

/-- So is everything in `enc2860_phyInit` after its first read. -/
theorem regs_phyInit_stale (c : Chip) (h : (b', a) ∉ miiKeys) :
    c.phyInit.regs b' a = (c.phyReadStale phyReg.PHCON1).regs b' a := by
  unfold phyInit
  rw [regs_phyWrite _ _ _ h, regs_phyRead _ (by decide) h, regs_phyWrite _ _ _ h]

theorem regs_phyInit (c : Chip) (h : (b', a) ∉ phyKeys) :
    c.phyInit.regs b' a = c.regs b' a := by
  rw [regs_phyInit_stale c (miiKeys_of_phyKeys h), regs_phyReadStale c _ h]

/-! ## PHY registers -/

theorem phy_setRegs (ws : List (BitVec 2 × BitVec 5 × Byte)) (c : Chip) :
    (c.setRegs ws).phy = c.phy ∧ (c.setRegs ws).mird = c.mird := by
  induction ws generalizing c with
  | nil => exact ⟨rfl, rfl⟩
  | cons w ws ih => exact ih (c.setReg w.1 w.2.1 w.2.2)

theorem phy_phyRead (c : Chip) {r : Byte} (hne : regAddr r ≠ PHIR) :
    (c.phyRead r).phy = c.phy ∧ (c.phyRead r).mird = c.phy (regAddr r) := by
  rw [phyRead_of_ne c hne]
  exact ⟨(phy_setRegs _ c).1, rfl⟩

theorem phy_phyWrite (c : Chip) (addr : Byte) (v : BitVec 16) :
    (c.phyWrite addr v).phy = fun r => if r = regAddr addr then v else c.phy r := by
  rw [phyWrite_eq]

theorem phy_phyReadStale (c : Chip) (addr : Byte) :
    (c.phyReadStale addr).phy = c.phy ∧ (c.phyReadStale addr).mird = c.mird := by
  rw [phyReadStale_eq]
  exact phy_setRegs (c.phyStaleWrites addr) c

theorem phy_firstRead (c : Chip) (b : Bank) : (c.firstRead b).phy = c.phy := by
  unfold firstRead
  split
  · exact (phy_phyReadStale c _).1
  · exact (phy_phyRead c (by decide)).1

/-- The identifier reads end with PHID2 in MIRD. -/
theorem phy_identified (c : Chip) (b : Bank) :
    (c.identified b).phy = c.phy ∧ (c.identified b).mird = c.phy 0x03 := by
  unfold identified
  obtain ⟨h3, hm⟩ := phy_phyRead (((c.firstRead b).phyRead phyReg.PHID2).phyRead phyReg.PHID1)
    (r := phyReg.PHID2) (by decide)
  have h2 := (phy_phyRead ((c.firstRead b).phyRead phyReg.PHID2)
    (r := phyReg.PHID1) (by decide)).1
  have h1 := (phy_phyRead (c.firstRead b) (r := phyReg.PHID2) (by decide)).1
  rw [h3, hm, h2, h1, phy_firstRead]
  exact ⟨rfl, rfl⟩

/-- PHCON1 is rewritten from MIRD, PHIE from its own value. -/
theorem phy_phyInit (c : Chip) : c.phyInit.phy = fun r =>
    if r = 0x12 then c.phy 0x12 ||| 0x12 else if r = 0x00 then c.mird ||| 0x100 else c.phy r := by
  have hcon : ((c.phyReadStale phyReg.PHCON1).phyWrite phyReg.PHCON1 (c.mird ||| (1 <<< 8))).phy =
      fun r => if r = 0x00 then c.mird ||| 0x100 else c.phy r := by
    rw [phy_phyWrite, (phy_phyReadStale c _).1]
    rfl
  unfold phyInit
  rw [phy_phyWrite, (phy_phyRead _ (by decide)).1, hcon]
  rfl

/-! ## the whole start-up -/

/-- The MAC's registers and ERXFCON are in banks 1 to 3. -/
theorem bank_macWrites (c : Chip) (d : Dev) {w : BitVec 2 × BitVec 5 × Byte}
    (hw : w ∈ macWrites c d ++ [(1, 0x18, RX_UNICAST ||| RX_CRC_CHECK ||| RX_BROADCAST)]) :
    w.1 ≠ 0 := by
  have hmem : w.1 ∈ ([2, 2, 2, 2, 2, 2, 2, 3, 3, 3, 3, 3, 3, 1] : List (BitVec 2)) :=
    List.mem_map_of_mem (f := Prod.fst) hw
  have hne : ∀ x ∈ ([2, 2, 2, 2, 2, 2, 2, 3, 3, 3, 3, 3, 3, 1] : List (BitVec 2)), x ≠ 0 := by
    decide
  exact hne _ hmem

/-- The buffer pointers are the first fourteen registers of bank 0. -/
theorem addr_bufferWrites (d : Dev) {w : BitVec 2 × BitVec 5 × Byte} (hw : w ∈ bufferWrites d) :
    w.1 = 0 ∧ w.2.1.ult 0x0E = true := by
  have hmem : (w.1, w.2.1) ∈ ([(0, 0x08), (0, 0x09), (0, 0x00), (0, 0x01), (0, 0x0A), (0, 0x0B),
      (0, 0x0C), (0, 0x0D), (0, 0x04), (0, 0x05), (0, 0x06), (0, 0x07)] :
      List (BitVec 2 × BitVec 5)) :=
    List.mem_map_of_mem (f := fun w => (w.1, w.2.1)) hw
  have hall : ∀ x ∈ ([(0, 0x08), (0, 0x09), (0, 0x00), (0, 0x01), (0, 0x0A), (0, 0x0B),
      (0, 0x0C), (0, 0x0D), (0, 0x04), (0, 0x05), (0, 0x06), (0, 0x07)] :
      List (BitVec 2 × BitVec 5)), x.1 = 0 ∧ x.2.ult 0x0E = true := by
    decide +kernel
  exact hall _ hmem

/-- The rest of the register file is not touched by the buffer pointers. -/
theorem regs_buffers_of_ne (c : Chip) (d : Dev) (h : ¬ (b' = 0 ∧ a.ult 0x0E = true)) :
    (c.buffers d).regs b' a = c.regs b' a :=
  regs_setRegs_of_ne (bufferWrites d) c fun w hw hba => by
    obtain ⟨h0, hlt⟩ := addr_bufferWrites d hw
    rw [← hba.1] at h0
    rw [← hba.2] at hlt
    exact h ⟨h0, hlt⟩

/-- Bank 0 is not touched after the PHY has been initialised. -/
theorem regs_configured_zero (c : Chip) (d : Dev) (a : BitVec 5) :
    (c.configured d).regs 0 a = c.regs 0 a :=
  regs_setRegs_of_ne _ c fun _ hw hba => bank_macWrites c d hw hba.1.symm

/-- Bank 0 after `enc28j60_strtDr`, but for the two registers a stale read writes. -/
theorem regs_started_zero (c : Chip) (b : Bank) (d : Dev) (h : ((0 : BitVec 2), a) ∉ phyKeys) :
    (c.started b d).regs 0 a = (c.buffered b d).regs 0 a :=
  (regs_configured_zero _ d a).trans (regs_phyInit _ h)

/-- What the first read of `enc2860_phyInit` leaves in EDMADST and EDMAND. -/
theorem regs_started_stale (c : Chip) {b : Bank} (hb : b ≠ .bank_2) (d : Dev) :
    (c.started b d).regs 0 0x14 = 0x00 ∧
      (c.started b d).regs 0 0x12 = c.resetRegs 0 0x12 ||| 0x01 := by
  have hbuf : (c.buffered b d).regs 0 0x12 = c.resetRegs 0 0x12 := by
    have hid := regs_identified_firstRead c.awake b (show ((0 : BitVec 2), (0x12 : BitVec 5)) ∉ miiKeys by
      decide)
    unfold firstRead at hid
    rw [if_neg hb, regs_phyRead _ (by decide) (by decide)] at hid
    exact (regs_buffers_of_ne _ d (by decide)).trans hid
  have hst : ∀ x : Chip, (x.phyReadStale phyReg.PHCON1).regs 0 0x14 = 0x00 ∧
      (x.phyReadStale phyReg.PHCON1).regs 0 0x12 = x.regs 0 0x12 ||| 0x01 := fun x => by
    rw [phyReadStale_eq]
    exact ⟨rfl, rfl⟩
  have hfin : ∀ a, ((0 : BitVec 2), a) ∉ miiKeys → (c.started b d).regs 0 a =
      ((c.buffered b d).phyReadStale phyReg.PHCON1).regs 0 a := fun a ha =>
    (regs_configured_zero _ d a).trans (regs_phyInit_stale _ ha)
  rw [hfin 0x14 (by decide), hfin 0x12 (by decide), (hst _).1, (hst _).2, hbuf]
  exact ⟨rfl, rfl⟩

end Chip

/-- The registers the driver programs, and the MII's own. -/
def startKeys : List (BitVec 2 × BitVec 5) :=
  [(0, 0x08), (0, 0x09), (0, 0x00), (0, 0x01), (0, 0x0A), (0, 0x0B), (0, 0x0C), (0, 0x0D),
   (0, 0x04), (0, 0x05), (0, 0x06), (0, 0x07), (2, 0x09), (2, 0x00), (2, 0x02), (2, 0x0A),
   (2, 0x0B), (2, 0x04), (2, 0x06), (3, 0x01), (3, 0x00), (3, 0x03), (3, 0x02), (3, 0x05),
   (3, 0x04), (1, 0x18), (2, 0x14), (2, 0x12), (2, 0x16), (2, 0x17)]

/-- The station address registers, in the order of `mac`. -/
def maadr (i : Fin 6) : BitVec 5 := [0x01, 0x00, 0x03, 0x02, 0x05, 0x04].getD i.val 0

/-- The registers hold what a reset loads. -/
structure Chip.AtReset (c : Chip) : Prop where
  regs : c.regs = c.resetRegs
  eie : c.eie = 0
  eir : c.eir = 0
  estat : c.estat = 0
  econ2 : c.econ2 = 0x80
  econ1 : c.econ1 = 0
  epktcnt : c.epktcnt = 0

/-- `c'` is `c` as the driver with record `d` is meant to program it. -/
structure Programmed (d : Dev) (c c' : Chip) : Prop where
  erxst : c'.ptr Chip.ERXST = d.rxBufStartAddr
  erxnd : c'.ptr Chip.ERXND = d.rxBufEndAddr
  erxrdpt : c'.ptr Chip.ERXRDPT = d.rxBufEndAddr
  erdpt : c'.ptr Chip.ERDPT = d.u16 ptrAddr
  etxst : c'.ptr Chip.ETXST = d.txBufStartAddr
  etxnd : c'.ptr Chip.ETXND = d.txBufEndAddr
  phcon1 : c'.phy 0x00 = c.phy 0x00 ||| (1 <<< 8)
  phie : c'.phy 0x12 = c.phy 0x12 ||| ((1 <<< 1) ||| (1 <<< 4))
  phy : ∀ r, r ≠ 0x00 → r ≠ 0x12 → c'.phy r = c.phy r
  maclcon2 : c'.regs 2 0x09 = c.regs 2 0x09 &&& ~~~((1 : Byte) <<< 7)
  macon1 : c'.regs 2 0x00 = c.regs 2 0x00 ||| ((1 <<< 3) ||| (1 <<< 2) ||| 0x01)
  macon3 : c'.regs 2 0x02 = c.regs 2 0x02 ||| ((7 <<< 5) ||| (1 <<< 4) ||| (1 <<< 2) ||| 0x01)
  mamxfl : word (c'.regs 2 0x0B) (c'.regs 2 0x0A) = d.MxmPkSize
  mabbipg : c'.regs 2 0x04 = 0x15
  maipgl : c'.regs 2 0x06 = 0x12
  maadr : ∀ i, c'.regs 3 (maadr i) = d.mac i
  erxfcon : c'.regs 1 0x18 = RX_UNICAST ||| RX_CRC_CHECK ||| RX_BROADCAST
  eie : c'.eie = 0xFF
  eir : c'.eir = c.eir
  estat : c'.estat = c.estat
  econ2 : c'.econ2 = c.econ2 ||| 0x80
  econ1 : c'.econ1 &&& 0xFC = (c.econ1 &&& 0xFC) ||| 0x04
  epktcnt : c'.epktcnt = c.epktcnt
  other : ∀ b a, (b, a) ∉ startKeys → c'.regs b a = c.regs b a

namespace Chip

variable {c : Chip} {b : Bank} {d : Dev}

/-- A register in none of the lists is as the reset left it. -/
theorem regs_started_other (c : Chip) (b : Bank) (d : Dev) {b' : BitVec 2} {a : BitVec 5}
    (h : (b', a) ∉ startKeys) (h0 : (b', a) ∉ phyKeys) :
    (c.started b d).regs b' a = c.resetRegs b' a := by
  have hmac : ∀ x : Chip, (x.configured d).regs b' a = x.regs b' a := fun x =>
    regs_setRegs _ (by simp [macWrites, startKeys]) x h
  have hbuf : ∀ x : Chip, (x.buffers d).regs b' a = x.regs b' a := fun x =>
    regs_setRegs (bufferWrites d) (by simp [bufferWrites, startKeys]) x h
  refine (hmac _).trans ((regs_phyInit _ h0).trans ((hbuf _).trans ?_))
  exact regs_identified c.awake b h0

@[simp] theorem ptr_select (c : Chip) (s : BitVec 2) (a : BitVec 5) :
    (c.select s).ptr a = c.ptr a := rfl

/-- A buffer pointer. -/
theorem ptr_started (c : Chip) (b : Bank) (d : Dev) {a : BitVec 5} {v : BitVec 16}
    (h : ((0 : BitVec 2), a) ∉ phyKeys ∧ ((0 : BitVec 2), a + 1) ∉ phyKeys)
    (hv : ∀ x : Chip, (x.setRegs (bufferWrites d)).regs 0 a = lo v ∧
      (x.setRegs (bufferWrites d)).regs 0 (a + 1) = hi v) : (c.started b d).ptr a = v := by
  unfold ptr
  rw [regs_started_zero c b d h.1, regs_started_zero c b d h.2]
  show word ((Chip.setRegs _ (bufferWrites d)).regs 0 (a + 1))
    ((Chip.setRegs _ (bufferWrites d)).regs 0 a) = v
  rw [(hv _).1, (hv _).2, word_hi_lo]

/-- The PHY after `enc28j60_strtDr`. -/
theorem phy_started (c : Chip) (b : Bank) (d : Dev) : (c.started b d).phy = fun r =>
    if r = 0x12 then c.phy 0x12 ||| 0x12
    else if r = 0x00 then c.phy 0x03 ||| 0x100 else c.phy r := by
  have hid := phy_identified c.awake b
  have hbuf : (c.buffered b d).phy = c.phy ∧ (c.buffered b d).mird = c.phy 0x03 :=
    ⟨(phy_setRegs (bufferWrites d) _).1.trans hid.1, (phy_setRegs (bufferWrites d) _).2.trans hid.2⟩
  have hfin : (c.started b d).phy = (c.buffered b d).phyInit.phy :=
    (phy_setRegs (macWrites _ d ++ _) _).1
  rw [hfin, phy_phyInit, hbuf.1, hbuf.2]

theorem quiet_started (c : Chip) (b : Bank) (d : Dev) :
    Quiet c.awake ((c.buffered b d).phyInit.configured d) :=
  (((quiet_identified _ b).trans (quiet_buffers _ d)).trans (quiet_phyInit _)).trans
    (quiet_setRegs _ _)

/-- The MAC's registers, from what they held after the reset. -/
theorem regs_started_mac (c : Chip) (b : Bank) (d : Dev) {a : BitVec 5}
    (h : ((2 : BitVec 2), a) ∉ phyKeys) :
    (c.buffered b d).phyInit.regs 2 a = c.resetRegs 2 a := by
  have hbuf : (c.buffered b d).regs 2 a = (c.awake.identified b).regs 2 a :=
    regs_buffers_of_ne _ d fun hba => absurd hba.1 (by decide)
  rw [regs_phyInit _ h, hbuf, regs_identified _ b h]
  rfl

end Chip

/-- Without interference, `enc28j60_strtDr` leaves the chip `Chip.started`. -/
theorem run_strtDr {t : Trail} {w : World} (ht : t.last ≠ .undefBank)
    (hb : w.dev.bnBank = t.last) (hs : w.chip.bsel = t.sel) {fuel : Nat}
    (hclk : w.chip.clk < fuel) (hbusy : w.chip.busy < fuel) (hf : w.chip.latency < fuel) :
    ∃ w', run (strtDr fuel) w = some ((), w') ∧ w'.dev = w.dev.setBank .bank_1 ∧
      w'.chip = (w.chip.started t.last w.dev).select 0 ∧ Beside w w' := by
  obtain ⟨w', hrun, hw', hbes⟩ := seq_strtDr ht hclk hbusy hf w (agrees_self hb hs)
  exact ⟨w', hrun, hw'.dev, hw'.chip, hbes⟩

/-- What the MAC's registers and the filter hold after `enc2860_macInit`. -/
theorem regs_configured (x : Chip) (d : Dev) :
    (x.configured d).regs 2 0x09 = x.regs 2 0x09 &&& ~~~((1 : Byte) <<< 7) ∧
    (x.configured d).regs 2 0x00 = x.regs 2 0x00 ||| ((1 <<< 3) ||| (1 <<< 2) ||| 0x01) ∧
    (x.configured d).regs 2 0x02 =
      x.regs 2 0x02 ||| ((7 <<< 5) ||| (1 <<< 4) ||| (1 <<< 2) ||| 0x01) ∧
    (x.configured d).regs 2 0x0A = lo d.MxmPkSize ∧
    (x.configured d).regs 2 0x0B = hi d.MxmPkSize ∧
    (x.configured d).regs 2 0x04 = 0x15 ∧ (x.configured d).regs 2 0x06 = 0x12 ∧
    (x.configured d).regs 1 0x18 = RX_UNICAST ||| RX_CRC_CHECK ||| RX_BROADCAST ∧
    ∀ i, (x.configured d).regs 3 (maadr i) = d.mac i := by
  refine ⟨rfl, rfl, rfl, rfl, rfl, rfl, rfl, rfl, fun i => ?_⟩
  match i with
  | 0 => rfl
  | 1 => rfl
  | 2 => rfl
  | 3 => rfl
  | 4 => rfl
  | 5 => rfl

theorem regs_started (c : Chip) (b : Bank) (d : Dev) :
    ((c.started b d).select 0).regs = ((c.buffered b d).phyInit.configured d).regs := rfl

/-- What `enc28j60_strtDr` leaves is as intended, but for what its stale read spoils. -/
theorem programmed_started {c : Chip} (hr : c.AtReset) {b : Bank} (d : Dev)
    (h14 : (c.started b d).regs 0 0x14 = c.resetRegs 0 0x14)
    (h12 : (c.started b d).regs 0 0x12 = c.resetRegs 0 0x12)
    (hcon : c.phy 0x03 ||| 0x100 = c.phy 0x00 ||| 0x100) :
    Programmed d c ((c.started b d).select 0) := by
  have hphy := Chip.phy_started c b d
  have hq := Chip.quiet_started c b d
  obtain ⟨hmaclcon2, hmacon1, hmacon3, hmxl, hmxh, hbbipg, hipgl, hfilter, hmaadr⟩ :=
    regs_configured (c.buffered b d).phyInit d
  rw [Chip.regs_started_mac c b d (by decide), ← hr.regs] at hmaclcon2 hmacon1 hmacon3
  refine ⟨?_, ?_, ?_, ?_, ?_, ?_, ?_, ?_, ?_, hmaclcon2, hmacon1, hmacon3, ?_, hbbipg, hipgl, hmaadr,
    hfilter, rfl, hq.eir.trans hr.eir.symm, hq.estat.trans hr.estat.symm, ?_, ?_,
    hq.epktcnt.trans hr.epktcnt.symm, ?_⟩
  case refine_1 =>
    rw [Chip.ptr_select]
    exact Chip.ptr_started c b d (by decide) fun x => ⟨rfl, rfl⟩
  case refine_2 =>
    rw [Chip.ptr_select]
    exact Chip.ptr_started c b d (by decide) fun x => ⟨rfl, rfl⟩
  case refine_3 =>
    rw [Chip.ptr_select]
    exact Chip.ptr_started c b d (by decide) fun x => ⟨rfl, rfl⟩
  case refine_4 =>
    rw [Chip.ptr_select]
    exact Chip.ptr_started c b d (by decide) fun x => ⟨rfl, rfl⟩
  case refine_5 =>
    rw [Chip.ptr_select]
    exact Chip.ptr_started c b d (by decide) fun x => ⟨rfl, rfl⟩
  case refine_6 =>
    rw [Chip.ptr_select]
    exact Chip.ptr_started c b d (by decide) fun x => ⟨rfl, rfl⟩
  case refine_7 =>
    rw [Chip.select_phy, hphy]
    exact hcon
  case refine_8 =>
    rw [Chip.select_phy, hphy]
    rfl
  case refine_9 =>
    intro r h0 h1
    rw [Chip.select_phy, hphy]
    simp only [if_neg h0, if_neg h1]
  case refine_10 =>
    rw [regs_started, hmxl, hmxh, word_hi_lo]
  case refine_11 =>
    rw [hr.econ2]
    rfl
  case refine_12 =>
    have hecon1 : (c.started b d).econ1 = 0x04 := by
      show ((c.buffered b d).phyInit.configured d).econ1 ||| 0x04 = 0x04
      rw [hq.econ1]
      show (0 : Byte) ||| 0x04 = 0x04
      decide
    show ((c.started b d).econ1 &&& 0xFC ||| (0 : BitVec 2).setWidth 8) &&& 0xFC = _
    rw [hecon1, hr.econ1]
    decide
  case refine_13 =>
    intro b' a hk
    rw [Chip.select_regs, hr.regs]
    by_cases h0 : (b', a) ∈ Chip.phyKeys
    · have hcase : (b', a) = (0, 0x14) ∨ (b', a) = (0, 0x12) := by
        simp only [Chip.phyKeys, List.mem_cons] at h0
        rcases h0 with h0 | h0 | h0
        · exact Or.inl h0
        · exact Or.inr h0
        · refine absurd ?_ hk
          have hsub : ∀ x ∈ Chip.miiKeys, x ∈ startKeys := by decide +kernel
          exact hsub _ h0
      rcases hcase with hba | hba
      · obtain ⟨rfl, rfl⟩ := Prod.mk.inj hba
        exact h14
      · obtain ⟨rfl, rfl⟩ := Prod.mk.inj hba
        exact h12
    · exact Chip.regs_started_other c b d hk h0

/-- **The programmed chip.**  `enc28j60_strtDr` at power-on programs the chip as
intended just when the three registers its stale PHY read spoils come out right:
EDMADSTL was 0, bit 0 of EDMANDL was set, and PHCON1 agreed with PHID2 but for
the bit it sets. -/
theorem programmed_iff {w : World} (hb : w.dev.bnBank = .bank_0) (hr : w.chip.AtReset)
    {fuel : Nat} (hclk : w.chip.clk < fuel) (hbusy : w.chip.busy < fuel)
    (hf : w.chip.latency < fuel) :
    ∃ w', run (strtDr fuel) w = some ((), w') ∧
      (Programmed w.dev w.chip w'.chip ↔
        w.chip.resetRegs 0 0x14 = 0x00 ∧ (w.chip.resetRegs 0 0x12).getLsbD 0 = true ∧
          w.chip.phy 0x03 ||| 0x100 = w.chip.phy 0x00 ||| 0x100) := by
  have hs : w.chip.bsel = 0 := by
    unfold Chip.bsel
    rw [hr.econ1]
    rfl
  obtain ⟨w', hrun, -, hchip, -⟩ := run_strtDr (t := .inside .bank_0) (by decide) hb hs
    hclk hbusy hf
  refine ⟨w', hrun, ?_⟩
  obtain ⟨h14, h12⟩ := Chip.regs_started_stale w.chip (b := .bank_0) (by decide) w.dev
  have hor : ∀ v : Byte, v ||| 0x01 = v ↔ v.getLsbD 0 = true := by decide
  rw [show w'.chip = (w.chip.started .bank_0 w.dev).select 0 from hchip]
  constructor
  · intro h
    have hother14 := h.other 0 0x14 (by decide)
    have hother12 := h.other 0 0x12 (by decide)
    have hcon := h.phcon1
    rw [Chip.select_regs, hr.regs] at hother14 hother12
    rw [Chip.select_phy, Chip.phy_started] at hcon
    refine ⟨hother14.symm.trans h14, ?_, hcon⟩
    exact (hor _).mp (h12.symm.trans hother12)
  · rintro ⟨he14, he12, hcon⟩
    refine programmed_started hr w.dev (h14.trans he14.symm) ?_ hcon
    exact h12.trans ((hor _).mpr he12)

/-- A chip on which the registers the stale read spoils come out right. -/
def spared : World :=
  let regs : BitVec 2 → BitVec 5 → Byte := fun b a => if b = 0 ∧ a = 0x12 then 0x01 else 0
  { World.powerOn with chip := { Chip.powerOn with regs, resetRegs := regs, phy := fun _ => 0 } }

/-- Such a chip is programmed as intended. -/
theorem programmed_iff_spared :
    ∃ w', run (strtDr 1) spared = some ((), w') ∧ Programmed spared.dev spared.chip w'.chip := by
  obtain ⟨w', hrun, h⟩ := programmed_iff (w := spared) rfl
    ⟨rfl, rfl, rfl, rfl, rfl, rfl, rfl⟩ (show spared.chip.clk < 1 by decide) (by decide) (by decide)
  exact ⟨w', hrun, h.mpr ⟨by decide, by decide, by decide⟩⟩

/-- With the chip's documented reset values, PHCON1 becomes PHID2 with bit 8 set. -/
theorem not_programmed_powerOn :
    ¬ ∀ (fuel : Nat) (w w' : World), w.dev.bnBank = .bank_0 → w.chip.AtReset →
      run (strtDr fuel) w = some ((), w') → Programmed w.dev w.chip w'.chip := by
  intro h
  obtain ⟨w', hrun, -, hchip, -⟩ := run_strtDr (t := .inside .bank_0) (w := World.powerOn)
    (by decide) rfl (by decide) (show World.powerOn.chip.clk < 1 by decide) (by decide) (by decide)
  have hcon := (h 1 World.powerOn w' rfl ⟨rfl, rfl, rfl, rfl, rfl, rfl, rfl⟩ hrun).phcon1
  rw [hchip, Chip.select_phy, Chip.phy_started] at hcon
  exact absurd hcon (by decide)

/-! ## the station address -/

/-- Where the chip keeps octet `i` of the station address, in bank 3. -/
def stationOctet (i : Fin 6) : BitVec 5 := [0x04, 0x05, 0x02, 0x03, 0x00, 0x01].getD i.val 0

/-- **One station address.**  After `enc2860_macInit`, octet by octet, the chip
filters on the address `ethernet_init` gives the interface. -/
theorem stationAddr_macInit {w : World} (hw : InStep w) :
    ∃ w', run macInit w = some ((), w') ∧ w'.dev.mac = w.dev.mac ∧
      ∀ i, w'.chip.regs 3 (stationOctet i) = (ethernet_init w'.dev).hwaddr i := by
  obtain ⟨w', hrun, hw', -⟩ := seq_macInit (b := w.dev.bnBank) hw.1 w hw.holds
  have hmac : w'.dev.mac = w.dev.mac := by rw [hw'.dev]; rfl
  refine ⟨w', hrun, hmac, fun i => ?_⟩
  show _ = w'.dev.mac i.rev
  rw [hw'.chip, Chip.select_regs, hmac]
  match i with
  | 0 => rfl
  | 1 => rfl
  | 2 => rfl
  | 3 => rfl
  | 4 => rfl
  | 5 => rfl

/-- At power-on, where both banks are 0. -/
theorem stationAddr_macInit_powerOn :
    ∃ w', run macInit World.powerOn = some ((), w') ∧ w'.dev.mac = World.powerOn.dev.mac ∧
      ∀ i, w'.chip.regs 3 (stationOctet i) = (ethernet_init w'.dev).hwaddr i :=
  stationAddr_macInit ⟨by decide, by decide⟩

/-! ## a restart -/

/-- The driver and the chip agree on an empty ring that starts where ERXWRPT is. -/
structure Ready (w : World) : Prop where
  ptrAddr : w.dev.u16 ptrAddr = w.dev.rxBufStartAddr
  erdpt : w.chip.ptr Chip.ERDPT = w.dev.rxBufStartAddr
  erxrdpt : w.chip.ptr Chip.ERXRDPT = lockPointer w.dev (w.dev.u16 Enc28j60.ptrAddr)
  erxwrpt : w.chip.erxwrpt = w.dev.u16 Enc28j60.ptrAddr

theorem erxwrpt_setRegs (ws : List (BitVec 2 × BitVec 5 × Byte)) (c : Chip) :
    (c.setRegs ws).erxwrpt = c.erxwrpt := by
  induction ws generalizing c with
  | nil => rfl
  | cons w ws ih => exact ih (c.setReg w.1 w.2.1 w.2.2)

theorem erxwrpt_phyWrite (c : Chip) (addr : Byte) (v : BitVec 16) :
    (c.phyWrite addr v).erxwrpt = c.erxwrpt := by
  rw [Chip.phyWrite_eq]
  exact erxwrpt_setRegs _ c

theorem erxwrpt_phyInit (c : Chip) : c.phyInit.erxwrpt = c.erxwrpt := by
  unfold Chip.phyInit
  rw [erxwrpt_phyWrite, Chip.phyRead_of_ne _ (by decide)]
  refine (erxwrpt_setRegs _ _).trans ?_
  rw [erxwrpt_phyWrite, Chip.phyReadStale_eq]
  exact erxwrpt_setRegs _ c

/-- The receive side of the chip after `enc28j60_strtDr`. -/
theorem rx_started (c : Chip) (b : Bank) (d : Dev) :
    (c.started b d).ptr Chip.ERDPT = d.u16 ptrAddr ∧
      (c.started b d).ptr Chip.ERXRDPT = d.rxBufEndAddr ∧
      (c.started b d).erxwrpt = d.rxBufStartAddr := by
  refine ⟨Chip.ptr_started c b d (by decide) fun x => ⟨rfl, rfl⟩,
    Chip.ptr_started c b d (by decide) fun x => ⟨rfl, rfl⟩, ?_⟩
  show ((c.buffered b d).phyInit.configured d).erxwrpt = d.rxBufStartAddr
  exact (erxwrpt_setRegs _ _).trans (erxwrpt_phyInit _)

/-- **Restart.**  After any calls of the driver, with anything going on beside
them, a restart leaves the driver ready just when `rxPkt.ptrAddr`, which it does
not touch, was at the start of the ring already. -/
theorem ready_iff {n fuel : Nat} {cs : List Call} {w₀ w : World} (h₀ : PowerOn w₀)
    (h : Steps BankEnv (calls n cs, w₀) (pure (), w)) (hclk : w.chip.clk < fuel)
    (hbusy : w.chip.busy < fuel) (hf : w.chip.latency < fuel) :
    ∃ w', run (strtDr fuel) w = some ((), w') ∧
      (Ready w' ↔ w.dev.u16 ptrAddr = w.dev.rxBufStartAddr) := by
  have hat : At (history cs) w := ((triple_calls n cs w₀ h₀).steps h w .refl).2
  obtain ⟨w', hrun, hdev, hchip, -⟩ := run_strtDr hat.1 hat.2.cached hat.2.selected hclk hbusy hf
  obtain ⟨herdpt, herxrdpt, herxwrpt⟩ := rx_started w.chip (history cs).last w.dev
  have hiff : w'.dev.u16 ptrAddr = w'.dev.rxBufStartAddr ↔
      w.dev.u16 ptrAddr = w.dev.rxBufStartAddr := by
    rw [hdev]
    exact .rfl
  refine ⟨w', hrun, fun hr => hiff.mp hr.ptrAddr, fun hp => ?_⟩
  have hptr := hiff.mpr hp
  have hst : w'.dev.rxBufStartAddr = w.dev.rxBufStartAddr ∧
      w'.dev.rxBufEndAddr = w.dev.rxBufEndAddr := by
    rw [hdev]
    exact ⟨rfl, rfl⟩
  refine ⟨hptr, ?_, ?_, ?_⟩
  · rw [hchip, Chip.ptr_select, hst.1, ← hp]
    exact herdpt
  · rw [hchip, Chip.ptr_select, lockPointer, if_pos hptr, hst.2]
    exact herxrdpt
  · rw [hchip, hptr, hst.1]
    exact herxwrpt

/-- A frame of four bytes. -/
def fourBytes : RxFrame := ⟨0, [0xAA, 0xBB, 0xCC, 0xDD], by decide⟩

/-- The first start-up leaves the driver ready. -/
theorem ready_iff_powerOn :
    ∃ w', run (strtDr 1) World.powerOn = some ((), w') ∧ Ready w' := by
  obtain ⟨w', hrun, h⟩ := ready_iff (show PowerOn World.powerOn from ⟨rfl, rfl, rfl⟩)
    (show Steps BankEnv (calls 1 [], World.powerOn) (pure (), World.powerOn) from .refl)
    (show World.powerOn.chip.clk < 1 by decide) (by decide) (by decide)
  exact ⟨w', hrun, h.mpr (by decide)⟩

/-- Start-up, one frame received, start-up again. -/
theorem not_ready_received :
    ¬ ∀ (n fuel : Nat) (cs : List Call) (w₀ w w' : World), PowerOn w₀ →
      Steps Env (calls n cs, w₀) (pure (), w) → run (strtDr fuel) w = some ((), w') →
      Ready w' := by
  intro h
  have hrun : ((run (strtDr 1) World.powerOn).bind fun r =>
      (run etherReceive (r.2.drive (r.2.chip.receive fourBytes))).bind fun r' =>
        (run (strtDr 1) r'.2).map fun r'' =>
          (decide (r.2.chip.econ1.getLsbD 2 = true ∧ r.2.chip.epktcnt ≠ 255 ∧
            Chip.footprint fourBytes ≤ r.2.chip.freeSpace),
            r''.2.dev.u16 ptrAddr, r''.2.dev.rxBufStartAddr)) = some (true, 0x000A, 0x0000) := by
    decide +kernel
  simp only [Option.bind_eq_some_iff, Option.map_eq_some_iff, Prod.mk.injEq] at hrun
  obtain ⟨⟨_, w1⟩, h1, ⟨r, w2⟩, h2, ⟨_, w3⟩, h3, haccepts, hptr, hst⟩ := hrun
  have harrive : Env w1 (w1.drive (w1.chip.receive fourBytes)) :=
    .chip (.receive fourBytes (by simpa [Chip.accepts] using haccepts))
  have hsteps : Steps Env (calls 1 [.strtDr, .etherReceive], World.powerOn) (pure (), w2) := by
    refine (steps_bind _ (steps_of_run Env h1)).trans (.head (.env harrive) ?_)
    refine steps_of_run Env ?_
    show run (discard etherReceive >>= fun _ => calls 1 []) _ = _
    simp [discard, h2, calls]
  have hready := h 1 1 _ _ w2 w3 ⟨rfl, rfl, rfl⟩ hsteps h3
  exact absurd (hptr.symm.trans (hready.ptrAddr.trans hst)) (by decide)

end Enc28j60
