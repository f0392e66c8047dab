import Enc28j60.Operated
import Enc28j60.Sequential

/-!
# Enc28j60.Translate

One call of `enc28j60_translate`.

* `translate_sends` — from any state the driver may be in, what a call leaves in
  the chip's transmit memory and registers, or that it leaves everything alone;
* `accesses_bounded_iff` — which frames stay inside `txPkt.data`.
-/

namespace Enc28j60

open Res

/-! ## the copy loop -/

/-- The record after the copy loop. -/
def Dev.copied (d : Dev) : List Seg → BitVec 16 → Dev
  | [], _ => d
  | q :: next, offset =>
      copied (d.store (txData + offset.toNat) q.payload) next
        (offset + BitVec.ofNat 16 q.payload.length)

/-- The final `offset` of the copy loop. -/
def offsetAfter : List Seg → BitVec 16 → BitVec 16
  | [], offset => offset
  | q :: next, offset => offsetAfter next (offset + BitVec.ofNat 16 q.payload.length)

/-- The bytes of a list of segments. -/
def segBytes (segs : List Seg) : List Byte := (segs.map Seg.payload).flatten

theorem segBytes_cons (q : Seg) (next : List Seg) :
    segBytes (q :: next) = q.payload ++ segBytes next := rfl

/-- As long as the bytes fit 16 bits, the offset counts them. -/
theorem toNat_offset_add {offset : BitVec 16} {n : Nat} (h : offset.toNat + n < 2 ^ 16) :
    (offset + BitVec.ofNat 16 n).toNat = offset.toNat + n := by
  rw [BitVec.toNat_add, BitVec.toNat_ofNat, Nat.mod_eq_of_lt (show n < 2 ^ 16 by omega),
    Nat.mod_eq_of_lt h]

theorem toNat_offsetAfter (segs : List Seg) {offset : BitVec 16}
    (h : offset.toNat + (segBytes segs).length < 2 ^ 16) :
    (offsetAfter segs offset).toNat = offset.toNat + (segBytes segs).length := by
  induction segs generalizing offset with
  | nil => rfl
  | cons q next ih =>
      rw [segBytes_cons, List.length_append] at h ⊢
      have hq := toNat_offset_add (n := q.payload.length)
        (show offset.toNat + q.payload.length < 2 ^ 16 by omega)
      unfold offsetAfter
      rw [ih (by omega), hq, Nat.add_assoc]

/-- Nothing before the copied bytes changes. -/
theorem pkt_copied_of_lt (segs : List Seg) {d : Dev} {offset : BitVec 16} {i : Nat}
    (h : offset.toNat + (segBytes segs).length < 2 ^ 16) (hi : i < txData + offset.toNat) :
    (d.copied segs offset).pkt i = d.pkt i := by
  induction segs generalizing d offset with
  | nil => rfl
  | cons q next ih =>
      rw [segBytes_cons, List.length_append] at h
      have hq := toNat_offset_add (n := q.payload.length)
        (show offset.toNat + q.payload.length < 2 ^ 16 by omega)
      unfold Dev.copied
      rw [ih (by omega) (by omega)]
      exact Mem.store_of_lt d.pkt q.payload hi

/-- The payloads follow each other in `txPkt.data`. -/
theorem load_copied (segs : List Seg) {d : Dev} {offset : BitVec 16}
    (h : offset.toNat + (segBytes segs).length < 2 ^ 16) :
    Mem.load (d.copied segs offset).pkt (txData + offset.toNat) (segBytes segs).length =
      segBytes segs := by
  induction segs generalizing d offset with
  | nil => rfl
  | cons q next ih =>
      rw [segBytes_cons, List.length_append] at h ⊢
      have hq := toNat_offset_add (n := q.payload.length)
        (show offset.toNat + q.payload.length < 2 ^ 16 by omega)
      have hrest := ih (d := d.store (txData + offset.toNat) q.payload)
        (show (offset + BitVec.ofNat 16 q.payload.length).toNat + (segBytes next).length < 2 ^ 16 by
          omega)
      have hfirst : Mem.load (d.copied (q :: next) offset).pkt (txData + offset.toNat)
          q.payload.length = q.payload := by
        have hsame : ∀ i, i < txData + offset.toNat + q.payload.length →
            (d.copied (q :: next) offset).pkt i =
              Mem.store d.pkt (txData + offset.toNat) q.payload i := fun i hi =>
          pkt_copied_of_lt next (by omega) (by omega)
        refine Eq.trans ?_ (Mem.load_store d.pkt (txData + offset.toNat) q.payload)
        refine List.map_congr_left fun k hk => hsame _ ?_
        have := List.mem_range.mp hk
        omega
      rw [Mem.load_add, hfirst, Nat.add_assoc, ← hq]
      exact congrArg (q.payload ++ ·) hrest

section Copy

variable {t : Trail} {d : Dev} {c : Chip}

theorem seq_copySegs (segs : List Seg) (offset : BitVec 16) :
    Seq t d c (copySegs segs offset) (offsetAfter segs offset) t (d.copied segs offset) c := by
  induction segs generalizing d offset with
  | nil => exact Seq.pure offset
  | cons q next ih => exact Seq.bind (seq_modifyDev fun _ => rfl) (ih _)

end Copy

/-! ## the transmit memory -/

namespace Chip

theorem ptr_setPtr_ewrpt (c : Chip) (v : BitVec 16) : (c.setPtr EWRPT v).ptr EWRPT = v := by
  simp [ptr, setPtr, setReg, word_hi_lo]

/-- The chip after one byte of a buffer write. -/
def put (c : Chip) (v : Byte) : Chip :=
  let p := c.ptr EWRPT
  let c' := { c with mem := fun i => if i = p.toNat then v else c.mem i }
  if c.autoinc then c'.setPtr EWRPT ((p + 1) &&& 0x1FFF) else c'

theorem writeBuffer_cons (v : Byte) (vs : List Byte) (c : Chip) :
    writeBuffer (v :: vs) c = writeBuffer vs (c.put v) := rfl

theorem put_select (c : Chip) (v : Byte) (s : BitVec 2) :
    (c.select s).put v = (c.put v).select s := by
  have hinc : (c.select s).autoinc = c.autoinc := rfl
  unfold put
  dsimp only
  rw [hinc]
  split <;> rfl

theorem writeBuffer_select (vs : List Byte) (c : Chip) (s : BitVec 2) :
    writeBuffer vs (c.select s) = (writeBuffer vs c).select s := by
  induction vs generalizing c with
  | nil => rfl
  | cons v vs ih => rw [writeBuffer_cons, writeBuffer_cons, put_select, ih]

theorem mem_put (c : Chip) (v : Byte) :
    (c.put v).mem = fun i => if i = (c.ptr EWRPT).toNat then v else c.mem i := by
  unfold put
  dsimp only
  split <;> rfl

theorem autoinc_put (c : Chip) (v : Byte) : (c.put v).autoinc = c.autoinc := by
  unfold put
  dsimp only
  split <;> rfl

/-- EWRPT moves on to the next byte. -/
theorem ptr_put {c : Chip} (v : Byte) (hinc : c.autoinc = true)
    (h : (c.ptr EWRPT).toNat + 1 < 0x2000) :
    ((c.put v).ptr EWRPT).toNat = (c.ptr EWRPT).toNat + 1 := by
  have hadd : (c.ptr EWRPT + 1).toNat = (c.ptr EWRPT).toNat + 1 := by
    rw [BitVec.toNat_add]
    exact Nat.mod_eq_of_lt (by show (c.ptr EWRPT).toNat + 1 < 2 ^ 16; omega)
  unfold put
  dsimp only
  rw [if_pos hinc, ptr_setPtr_ewrpt, BitVec.toNat_and, hadd]
  exact Nat.and_two_pow_sub_one_of_lt_two_pow (n := 13) (by omega)

/-- With AUTOINC set, a block that ends inside the 8 KiB is stored from EWRPT on. -/
theorem mem_writeBuffer (vs : List Byte) {c : Chip} (hinc : c.autoinc = true)
    (h : (c.ptr EWRPT).toNat + vs.length ≤ 0x2000) :
    (writeBuffer vs c).mem = Mem.store c.mem (c.ptr EWRPT).toNat vs := by
  induction vs generalizing c with
  | nil => exact (Mem.store_nil _ _).symm
  | cons v vs ih =>
      rw [List.length_cons] at h
      rw [writeBuffer_cons, Mem.store_cons, ← mem_put]
      cases vs with
      | nil => exact (Mem.store_nil _ _).symm
      | cons v' vs =>
          rw [List.length_cons] at h ih
          have hnext := ptr_put v hinc (by omega)
          rw [ih ((autoinc_put c v).trans hinc) (by omega), hnext]

/-- Only EWRPT moves. -/
theorem regs_writeBuffer (vs : List Byte) (c : Chip) {b : BitVec 2} {a : BitVec 5}
    (h : ¬ (b = 0 ∧ (a = 0x02 ∨ a = 0x03))) : (writeBuffer vs c).regs b a = c.regs b a := by
  induction vs generalizing c with
  | nil => rfl
  | cons v vs ih =>
      have hL : ¬ (b = 0 ∧ a = EWRPT) := fun hc => h ⟨hc.1, .inl hc.2⟩
      have hH : ¬ (b = 0 ∧ a = EWRPT + 1) := fun hc => h ⟨hc.1, .inr hc.2⟩
      rw [writeBuffer_cons, ih]
      unfold put
      dsimp only
      split
      · unfold setPtr setReg
        dsimp only
        rw [if_neg hH, if_neg hL]
      · rfl

/-- The chip with a frame loaded at `s` and the last byte of it at `e`. -/
def loaded (c : Chip) (s e : BitVec 16) (bytes : List Byte) : Chip :=
  (writeBuffer (0x00 :: bytes) ((c.setPtr EWRPT s).setPtr ETXST s)).setPtr ETXND e

/-- The chip with transmission requested. -/
def requested (c : Chip) : Chip :=
  { c with
    eir := ((c.eir &&& ~~~((1 : Byte) <<< 3)) &&& 0x2F) ||| (c.eir &&& 0x10)
    eie := (c.eie ||| (1 <<< 3)) ||| (1 <<< 7)
    econ1 := c.econ1 ||| (1 <<< 3) }

end Chip

section Transmit

variable {t : Trail} {d : Dev} {c : Chip} (ht : t.last ≠ .undefBank)
include ht

/-- The record remembers the last address of the frame. -/
def Dev.sized (d : Dev) (length : BitVec 16) : Dev := d.setU16 txPktLen (d.txBufStartAddr + length)

omit ht in
theorem load_sized (d : Dev) (length : BitVec 16) (n : Nat) :
    Mem.load (d.sized length).pkt txData n = Mem.load d.pkt txData n :=
  Mem.load_store_of_disjoint d.pkt _ (.inr (Nat.le_refl txData))

theorem seq_loadFrame (length : BitVec 16) :
    Seq t d c (loadFrame txData length) () (.outside t.last) (d.sized length)
      (c.loaded d.txBufStartAddr (d.txBufStartAddr + length)
        (Mem.load d.pkt txData length.toNat)) := by
  have hlen : (d.sized length).u16 txPktLen = d.txBufStartAddr + length := Dev.u16_setU16 _ _ _
  unfold loadFrame
  refine Seq.bind seq_getDev ?_
  refine Seq.bind (seq_writeReg16_zero ht (by decide) (by decide) _) ?_
  refine Seq.bind (seq_writeReg16_zero (t := .outside t.last) ht (by decide) (by decide) _) ?_
  refine Seq.bind (seq_modifyDev (f := fun d => d.sized length) fun _ => rfl) ?_
  refine Seq.bind seq_getDev ?_
  have hfill : Seq (.outside t.last) (d.sized length)
      ((c.setPtr Chip.EWRPT d.txBufStartAddr).setPtr Chip.ETXST d.txBufStartAddr)
      (spiSend none opcode.u8WriteBufferMemory
        (0x00 :: Mem.load (d.sized length).pkt txData length.toNat)) () (.outside t.last)
      (d.sized length) (Chip.writeBuffer (0x00 :: Mem.load d.pkt txData length.toNat)
        ((c.setPtr Chip.EWRPT d.txBufStartAddr).setPtr Chip.ETXST d.txBufStartAddr)) := by
    refine seq_spiSend (s := 0) ?_ rfl rfl
    rw [Chip.command_writeBuffer, load_sized]
    exact Chip.writeBuffer_select _ _ 0
  refine Seq.bind hfill ?_
  refine (seq_writeReg16_zero (t := .outside t.last) ht (by decide) (by decide) _).congr rfl
    ⟨rfl, rfl⟩ rfl ?_
  show Chip.setPtr _ Chip.ETXND ((d.sized length).u16 txPktLen) = _
  rw [hlen]
  rfl

/-- `enc28j60_etherTransmit` of a frame in `txPkt.data`. -/
theorem seq_etherTransmit (length : BitVec 16) :
    Seq t d c (etherTransmit txData length) true (.outside t.last) (d.sized length)
      (c.loaded d.txBufStartAddr (d.txBufStartAddr + length)
        (Mem.load d.pkt txData length.toNat)).requested := by
  let x := c.loaded d.txBufStartAddr (d.txBufStartAddr + length) (Mem.load d.pkt txData length.toNat)
  have ho : (Trail.outside t.last).last ≠ .undefBank := ht
  have heir := seq_BitFieldClear (t := .outside t.last) (d := d.sized length) (c := x)
    (r := bank0.EIR) (v := 1 <<< 3)
    (y := { x with eir := ((x.eir &&& ~~~((1 : Byte) <<< 3)) &&& 0x2F) ||| (x.eir &&& 0x10) }) ho
    fun s => rfl
  have heie : ∀ (y : Chip) (v : Byte), Seq (.outside t.last) (d.sized length) y
      (BitFieldSet bank0.EIE v) () (.outside t.last) (d.sized length) { y with eie := y.eie ||| v } :=
    fun y v => (seq_BitFieldSet ho fun s => rfl).congr rfl ⟨rfl, rfl⟩ rfl rfl
  have hrts : ∀ y : Chip, Seq (.outside t.last) (d.sized length) y
      (BitFieldSet bank0.ECON1 (1 <<< 3)) () (.outside t.last) (d.sized length)
      { y with econ1 := y.econ1 ||| (1 <<< 3) } := fun y =>
    (seq_BitFieldSet ho (setBit_econ1 y (v := 1 <<< 3) (by decide))).congr rfl ⟨rfl, rfl⟩ rfl rfl
  unfold etherTransmit
  refine Seq.bind (seq_loadFrame ht length) ?_
  refine Seq.bind (heir.congr rfl ⟨rfl, rfl⟩ rfl rfl) ?_
  refine Seq.bind (heie _ _) (Seq.bind (heie _ _) (Seq.bind (hrts _) ?_))
  exact Seq.pure true

end Transmit

/-! ## one call -/

/-- What a successful call leaves behind, for a frame of these bytes. -/
structure Sent (bytes : List Byte) (w w' : World) : Prop where
  /-- The per-packet control byte, then the frame. -/
  control : w'.chip.mem 0x1800 = 0x00
  frame : Mem.load w'.chip.mem 0x1801 bytes.length = bytes
  etxst : w'.chip.ptr Chip.ETXST = 0x1800
  etxnd : (w'.chip.ptr Chip.ETXND).toNat = 0x1800 + bytes.length
  /-- Room for the status vector. -/
  room : (w'.chip.ptr Chip.ETXND).toNat + 7 ≤ 0x1FFF
  txrts : w'.chip.txrts = true
  txif : w'.chip.txif = false
  bTxBusy : w'.bTxBusy = true
  rxMem : ∀ i < 0x1800, w'.chip.mem i = w.chip.mem i
  erdpt : w'.chip.ptr Chip.ERDPT = w.chip.ptr Chip.ERDPT
  erxst : w'.chip.ptr Chip.ERXST = w.chip.ptr Chip.ERXST
  erxnd : w'.chip.ptr Chip.ERXND = w.chip.ptr Chip.ERXND
  erxrdpt : w'.chip.ptr Chip.ERXRDPT = w.chip.ptr Chip.ERXRDPT
  rxPkt : ∀ i < txPktLen, w'.dev.pkt i = w.dev.pkt i

namespace Chip

variable {c : Chip} {s e : BitVec 16} {bytes : List Byte}

/-- The registers loading a frame leaves alone. -/
theorem regs_loaded {b : BitVec 2} {a : BitVec 5}
    (h : b ≠ 0 ∨ a ∉ ([0x02, 0x03, 0x04, 0x05, 0x06, 0x07] : List (BitVec 5))) :
    (c.loaded s e bytes).regs b a = c.regs b a := by
  have hset : ∀ (x : Chip) (p : BitVec 5) (v : BitVec 16),
      p ∈ ([0x02, 0x04, 0x06] : List (BitVec 5)) → (x.setPtr p v).regs b a = x.regs b a := by
    intro x p v hp
    have hne : ¬ (b = 0 ∧ a = p) ∧ ¬ (b = 0 ∧ a = p + 1) := by
      rcases h with h | h
      · exact ⟨fun hc => h hc.1, fun hc => h hc.1⟩
      · simp only [List.mem_cons, List.not_mem_nil, or_false] at hp h
        rcases hp with rfl | rfl | rfl <;> simp_all
    unfold setPtr setReg
    dsimp only
    rw [if_neg hne.2, if_neg hne.1]
  have hbuf : ¬ (b = 0 ∧ (a = 0x02 ∨ a = 0x03)) := by
    rintro ⟨hb, ha⟩
    rcases h with h | h
    · exact h hb
    · rcases ha with rfl | rfl <;> exact h (by decide)
  unfold loaded
  rw [hset _ _ _ (by decide), regs_writeBuffer _ _ hbuf, hset _ _ _ (by decide),
    hset _ _ _ (by decide)]

theorem ptr_loaded {a : BitVec 5}
    (h : a ∉ ([0x02, 0x03, 0x04, 0x05, 0x06, 0x07] : List (BitVec 5)) ∧
      a + 1 ∉ ([0x02, 0x03, 0x04, 0x05, 0x06, 0x07] : List (BitVec 5))) :
    (c.loaded s e bytes).ptr a = c.ptr a := by
  unfold ptr
  rw [regs_loaded (.inr h.1), regs_loaded (.inr h.2)]

theorem etxnd_loaded : (c.loaded s e bytes).ptr ETXND = e := by
  simp [loaded, ptr, setPtr, setReg, word_hi_lo]

theorem etxst_loaded : (c.loaded s e bytes).ptr ETXST = s := by
  have hst : ∀ x : Chip, (x.setPtr ETXND e).ptr ETXST = x.ptr ETXST := fun x => by
    simp [ptr, setPtr, setReg]
  unfold loaded
  rw [hst]
  unfold ptr
  rw [regs_writeBuffer _ _ (by decide), regs_writeBuffer _ _ (by decide)]
  exact word_hi_lo s

/-- The control byte and the frame are at `s`; nothing else changes in memory. -/
theorem mem_loaded (hinc : c.autoinc = true) (h : s.toNat + bytes.length + 1 ≤ 0x2000) :
    (c.loaded s e bytes).mem = Mem.store c.mem s.toNat (0x00 :: bytes) := by
  have hptr : ((c.setPtr EWRPT s).setPtr ETXST s).ptr EWRPT = s := by
    simp [ptr, setPtr, setReg, word_hi_lo]
  have hmem := mem_writeBuffer (0x00 :: bytes) (c := (c.setPtr EWRPT s).setPtr ETXST s) hinc
    (by rw [hptr, List.length_cons]; omega)
  rw [hptr] at hmem
  exact hmem

end Chip

/-- The banks are as history `t` says, whatever the record of transactions. -/
structure InBanks (t : Trail) (w : World) : Prop where
  known : t.last ≠ .undefBank
  cached : w.dev.bnBank = t.last
  selected : w.chip.bsel = t.sel

theorem inBanks_of_at {t : Trail} {w : World} (h : At t w) : InBanks t w :=
  ⟨h.1, h.2.cached, h.2.selected⟩

section Call

variable {t : Trail} {w : World} (ht : InBanks t w) (p : Pbuf)
include ht

/-- The copy loop, from inside `enc28j60_translate`. -/
theorem run_copySegs :
    ∃ w', run (copySegs p.segs 0) { w with at_ := .translate } = some (offsetAfter p.segs 0, w') ∧
      Agrees t (w.dev.copied p.segs 0) w.chip w' ∧ Beside { w with at_ := .translate } w' :=
  seq_copySegs (t := t) p.segs 0 _ (agrees_self (w := { w with at_ := .translate }) ht.cached
    ht.selected)

/-- A frame of the announced length is sent. -/
theorem run_translate_sent (hidle : w.bTxBusy = false) (htot : offsetAfter p.segs 0 = p.tot_len) :
    ∃ w', run (translate p) w = some (.ERR_OK, w') ∧
      w'.dev = ((w.dev.copied p.segs 0).sized p.tot_len).setBank t.last ∧
      w'.chip = (w.chip.loaded w.dev.txBufStartAddr (w.dev.txBufStartAddr + p.tot_len)
        (Mem.load (w.dev.copied p.segs 0).pkt txData p.tot_len.toNat)).requested.select 0 ∧
      w'.bTxBusy = true ∧ w'.delivered = w.delivered := by
  have hst : ∀ (segs : List Seg) (d : Dev) (offset : BitVec 16),
      (d.copied segs offset).txBufStartAddr = d.txBufStartAddr := by
    intro segs
    induction segs with
    | nil => exact fun _ _ => rfl
    | cons q next ih => exact fun d offset => ih _ _
  obtain ⟨w1, hrun1, hw1, hbes1⟩ := run_copySegs ht p
  obtain ⟨w2, hrun2, hw2, hbes2⟩ := seq_etherTransmit ht.known p.tot_len w1 hw1
  rw [hst] at hw2
  refine ⟨{ w2 with bTxBusy := true, at_ := .loop }, ?_, hw2.dev, hw2.chip, rfl,
    hbes2.delivered.trans hbes1.delivered⟩
  have hbusy : ({ w with at_ := .translate } : World).bTxBusy ≠ true := by
    rw [show ({ w with at_ := .translate } : World).bTxBusy = false from hidle]
    exact nofun
  unfold translate translateBody goto setTxBusy
  simp only [run_bind, run_gets, run_modify, Option.bind_some, if_pos hbusy, hrun1,
    if_neg (not_not.mpr htot), hrun2, run_pure]

/-- A chain that does not have the announced length is copied, and dropped. -/
theorem run_translate_dropped (hidle : w.bTxBusy = false) (htot : offsetAfter p.segs 0 ≠ p.tot_len) :
    ∃ w', run (translate p) w = some (.ERR_BUF, w') ∧
      w'.dev = (w.dev.copied p.segs 0).setBank t.last ∧ w'.chip = w.chip ∧
      w'.bTxBusy = w.bTxBusy ∧ w'.delivered = w.delivered := by
  obtain ⟨w1, hrun1, hw1, hbes⟩ := run_copySegs ht p
  refine ⟨{ w1 with at_ := .loop }, ?_, hw1.dev, ?_, hbes.bTxBusy, hbes.delivered⟩
  · have hbusy : ({ w with at_ := .translate } : World).bTxBusy ≠ true := by
      rw [show ({ w with at_ := .translate } : World).bTxBusy = false from hidle]
      exact nofun
    unfold translate translateBody goto
    simp only [run_bind, run_gets, run_modify, Option.bind_some, if_pos hbusy, hrun1, if_pos htot,
      run_pure]
  · show w1.chip = w.chip
    rw [hw1.chip, ← ht.selected, Chip.select_bsel]

omit ht in
/-- While a transmission is under way nothing is done. -/
theorem run_translate_busy (hbusy : w.bTxBusy = true) :
    run (translate p) w = some (.ERR_INPROGRESS, { w with at_ := .loop }) := by
  simp [translate, translateBody, goto, hbusy]

/-- A call returns, whatever the chain, and delivers nothing. -/
theorem run_translate :
    ∃ err w' t', run (translate p) w = some (err, w') ∧ InBanks t' w' ∧
      w'.delivered = w.delivered := by
  by_cases hbusy : w.bTxBusy = true
  · exact ⟨_, _, t, run_translate_busy p hbusy, ⟨ht.known, ht.cached, ht.selected⟩, rfl⟩
  rw [Bool.not_eq_true] at hbusy
  by_cases htot : offsetAfter p.segs 0 = p.tot_len
  · obtain ⟨w', hrun, hdev, hchip, -, hdel⟩ := run_translate_sent ht p hbusy htot
    refine ⟨_, w', .outside t.last, hrun, ⟨ht.known, ?_, ?_⟩, hdel⟩
    · rw [hdev]
      rfl
    · rw [hchip]
      exact Chip.bsel_select _ _
  · obtain ⟨w', hrun, hdev, hchip, -, hdel⟩ := run_translate_dropped ht p hbusy htot
    refine ⟨_, w', t, hrun, ⟨ht.known, ?_, ?_⟩, hdel⟩
    · rw [hdev]
      rfl
    · rw [hchip]
      exact ht.selected

omit ht in
/-- So does the whole of what lwIP sends. -/
theorem run_sendAll (frames : List Pbuf) {t : Trail} {w : World} (ht : InBanks t w) :
    ∃ w', run (sendAll frames) w = some ((), w') ∧ w'.delivered = w.delivered := by
  induction frames generalizing t w with
  | nil => exact ⟨w, rfl, rfl⟩
  | cons p next ih =>
      obtain ⟨err, w1, t1, hrun1, ht1, hdel1⟩ := run_translate ht p
      obtain ⟨w2, hrun2, hdel2⟩ := ih ht1
      refine ⟨w2, ?_, hdel2.trans hdel1⟩
      unfold sendAll
      simp only [run_bind, hrun1, Option.bind_some, hrun2]

end Call

/-- The announced length is the one the copy loop counts. -/
theorem offsetAfter_eq_iff {p : Pbuf} (hp : p.bytes.length ≤ 1500) :
    offsetAfter p.segs 0 = p.tot_len ↔ p.bytes.length = p.tot_len.toNat := by
  have hoff : (offsetAfter p.segs 0).toNat = p.bytes.length := by
    have hlt : (0 : BitVec 16).toNat + (segBytes p.segs).length < 2 ^ 16 := by
      show 0 + p.bytes.length < 2 ^ 16
      omega
    rw [toNat_offsetAfter p.segs hlt]
    exact Nat.zero_add _
  rw [← hoff]
  exact ⟨fun h => congrArg BitVec.toNat h, BitVec.eq_of_toNat_eq⟩

/-- The copy loop leaves the frame in `txPkt.data`, and `rxPkt` alone. -/
theorem copied_bytes (d : Dev) {p : Pbuf} (hp : p.bytes.length ≤ 1500) :
    Mem.load (d.copied p.segs 0).pkt txData p.bytes.length = p.bytes ∧
      ∀ i < txPktLen, (d.copied p.segs 0).pkt i = d.pkt i := by
  have hlt : (0 : BitVec 16).toNat + (segBytes p.segs).length < 2 ^ 16 := by
    show 0 + p.bytes.length < 2 ^ 16
    omega
  refine ⟨load_copied p.segs hlt, fun i hi => pkt_copied_of_lt p.segs hlt ?_⟩
  exact Nat.lt_of_lt_of_le hi (by decide)

/-- **Transmit end to end.**  From any state the driver may be in, a call with
a chain of at most 1500 bytes and the right `tot_len` loads and requests it if no
transmission is under way; otherwise it fails and touches neither the chip nor
`bTxBusy`. -/
theorem translate_sends {w : World} (hw : Operated w) (p : Pbuf) (hp : p.bytes.length ≤ 1500) :
    (w.bTxBusy = false → p.bytes.length = p.tot_len.toNat →
      ∃ w', run (translate p) w = some (.ERR_OK, w') ∧ Sent p.bytes w w') ∧
    (w.bTxBusy = true ∨ p.bytes.length ≠ p.tot_len.toNat →
      ∃ err w', run (translate p) w = some (err, w') ∧ err ≠ .ERR_OK ∧ w'.chip = w.chip ∧
        w'.bTxBusy = w.bTxBusy) := by
  obtain ⟨⟨t, ht⟩, hsetup, hinc⟩ := operated_inv hw
  refine ⟨fun hidle htot => ?_, fun hfail => ?_⟩
  · obtain ⟨w', hrun, hdev, hchip, hbusy, -⟩ :=
      run_translate_sent (inBanks_of_at ht) p hidle ((offsetAfter_eq_iff hp).mpr htot)
    obtain ⟨hload, hrx⟩ := copied_bytes w.dev hp
    have hst : w.dev.txBufStartAddr = 0x1800 := hsetup.txBufStartAddr
    rw [← htot, hload, hst] at hchip
    have hend : ((0x1800 : BitVec 16) + p.tot_len).toNat = 0x1800 + p.bytes.length := by
      rw [BitVec.toNat_add, htot]
      exact Nat.mod_eq_of_lt (by show 0x1800 + p.tot_len.toNat < 2 ^ 16; omega)
    have hmem : w'.chip.mem = Mem.store w.chip.mem 0x1800 (0x00 :: p.bytes) := by
      rw [hchip]
      exact Chip.mem_loaded (e := 0x1800 + p.tot_len) hinc (by show 0x1800 + p.bytes.length + 1 ≤ 0x2000; omega)
    have hptr : ∀ a, w'.chip.ptr a = (w.chip.loaded 0x1800 (0x1800 + p.tot_len) p.bytes).ptr a := by
      rw [hchip]
      exact fun _ => rfl
    have hnd : w'.chip.ptr Chip.ETXND = 0x1800 + p.tot_len := (hptr _).trans Chip.etxnd_loaded
    have hframe : Mem.load w'.chip.mem (0x1800 + 1) p.bytes.length = p.bytes := by
      rw [hmem, Mem.store_cons, Mem.load_store]
    have hbit : ∀ (v : Byte) (s : BitVec 2),
        (((v ||| (1 <<< 3)) &&& 0xFC) ||| s.setWidth 8).getLsbD 3 = true := by decide
    have hclear : ∀ v : Byte,
        (((v &&& ~~~((1 : Byte) <<< 3)) &&& 0x2F) ||| (v &&& 0x10)).getLsbD 3 = false := by decide
    refine ⟨w', hrun, ?_, hframe, (hptr _).trans Chip.etxst_loaded, ?_, ?_, ?_, ?_, hbusy, ?_, ?_,
      ?_, ?_, ?_, ?_⟩
    · rw [hmem, Mem.store_cons, Mem.store_of_lt _ _ (by decide)]
      rfl
    · rw [hnd, hend]
    · rw [hnd, hend]
      omega
    · rw [hchip]
      exact hbit _ _
    · rw [hchip]
      exact hclear _
    · intro i hi
      rw [hmem, Mem.store_of_lt _ _ hi]
    · exact (hptr _).trans (Chip.ptr_loaded (by decide))
    · exact (hptr _).trans (Chip.ptr_loaded (by decide))
    · exact (hptr _).trans (Chip.ptr_loaded (by decide))
    · exact (hptr _).trans (Chip.ptr_loaded (by decide))
    · intro i hi
      rw [hdev, ← hrx i hi]
      exact Mem.store_of_lt _ _ hi
  · by_cases hbusy : w.bTxBusy = true
    · exact ⟨_, _, run_translate_busy p hbusy, nofun, rfl, rfl⟩
    · have htot := hfail.resolve_left hbusy
      rw [Bool.not_eq_true] at hbusy
      obtain ⟨w', hrun, -, hchip, hb, -⟩ := run_translate_dropped (inBanks_of_at ht) p hbusy
        fun heq => htot ((offsetAfter_eq_iff hp).mp heq)
      exact ⟨_, w', hrun, nofun, hchip, hb⟩

/-- A chain of three segments, one of them empty. -/
def threeSegs : Pbuf :=
  ⟨[⟨[0x11, 0x22], by decide⟩, ⟨[], by decide⟩, ⟨[0x33], by decide⟩], 3⟩

/-- It is sent once the driver has started. -/
theorem translate_sends_threeSegs :
    ∃ w w', Operated w ∧ run (translate threeSegs) w = some (.ERR_OK, w') ∧
      Sent [0x11, 0x22, 0x33] w w' := by
  have hrun : (run (strtDr 1) World.powerOn).map (fun r => r.2.bTxBusy) = some false := by
    decide +kernel
  obtain ⟨⟨_, w⟩, hw, hidle⟩ := Option.map_eq_some_iff.mp hrun
  have hop : Operated w := .start ⟨rfl, rfl, rfl⟩ rfl (steps_of_run Env hw)
  obtain ⟨w', hrun', hsent⟩ := (translate_sends hop threeSegs (by decide)).1 hidle rfl
  exact ⟨w, w', hop, hrun', hsent⟩

/-! ## the bounds of `txPkt.data` -/

/-- The copy loop, with the index and the length of each copy. -/
def copySegsTraced : List Seg → BitVec 16 → Fw (BitVec 16 × List (Nat × Nat))
  | [], offset => pure (offset, [])
  | q :: next, offset => do
      modifyDev fun d => d.store (txData + offset.toNat) q.payload
      let r ← copySegsTraced next (offset + BitVec.ofNat 16 q.payload.length)
      pure (r.1, (offset.toNat, q.payload.length) :: r.2)

/-- The body of `enc28j60_translate`, with what it touches in `txPkt.data`: where
each copy goes, and last what `enc28j60_etherTransmit` reads. -/
def translateBodyTraced (p : Pbuf) : Fw (Err × List (Nat × Nat)) := do
  let busy ← Res.gets World.bTxBusy
  if busy ≠ true then
    let c ← copySegsTraced p.segs 0
    if c.1 ≠ p.tot_len then
      pure (.ERR_BUF, c.2)
    else
      let _ ← etherTransmit txData p.tot_len
      setTxBusy true
      pure (.ERR_OK, c.2 ++ [(0, p.tot_len.toNat)])
  else
    pure (.ERR_INPROGRESS, [])

def translateTraced (p : Pbuf) : Fw (Err × List (Nat × Nat)) := do
  goto .translate
  let r ← translateBodyTraced p
  goto .loop
  pure r

theorem copySegs_eq (segs : List Seg) (offset : BitVec 16) :
    copySegs segs offset = (copySegsTraced segs offset >>= fun r => pure r.1) := by
  induction segs generalizing offset with
  | nil => rfl
  | cons q next ih =>
      unfold copySegs copySegsTraced
      simp only [ih, bind_assoc, pure_bind]

theorem translateBody_eq (p : Pbuf) :
    translateBody p = (translateBodyTraced p >>= fun r => pure r.1) := by
  unfold translateBody translateBodyTraced
  simp only [copySegs_eq, bind_assoc, pure_bind]
  congr 1
  funext busy
  by_cases hb : busy ≠ true
  · simp only [if_pos hb, bind_assoc]
    congr 1
    funext c
    by_cases hc : c.1 ≠ p.tot_len
    · simp only [if_pos hc, pure_bind]
    · simp only [if_neg hc, bind_assoc, pure_bind]
  · simp only [if_neg hb, pure_bind]

/-- It is the same program. -/
theorem translate_eq (p : Pbuf) : translate p = (translateTraced p >>= fun r => pure r.1) := by
  unfold translate translateTraced
  simp only [translateBody_eq, bind_assoc, pure_bind]

/-- What the copy loop touches. -/
def copyRanges : List Seg → BitVec 16 → List (Nat × Nat)
  | [], _ => []
  | q :: next, offset =>
      (offset.toNat, q.payload.length) ::
        copyRanges next (offset + BitVec.ofNat 16 q.payload.length)

theorem copyRanges_le (segs : List Seg) {offset : BitVec 16} {r : Nat × Nat}
    (h : offset.toNat + (segBytes segs).length < 2 ^ 16) (hr : r ∈ copyRanges segs offset) :
    r.1 + r.2 ≤ offset.toNat + (segBytes segs).length := by
  induction segs generalizing offset with
  | nil => exact absurd hr List.not_mem_nil
  | cons q next ih =>
      rw [segBytes_cons, List.length_append] at h ⊢
      have hq := toNat_offset_add (n := q.payload.length)
        (show offset.toNat + q.payload.length < 2 ^ 16 by omega)
      rcases List.mem_cons.mp hr with rfl | hr
      · show offset.toNat + q.payload.length ≤ _
        omega
      · have := ih (by omega) hr
        omega

theorem triple_copySegsTraced (segs : List Seg) (offset : BitVec 16) :
    Triple Env (fun _ => True) (fun _ => True) (copySegsTraced segs offset)
      fun r _ => r = (offsetAfter segs offset, copyRanges segs offset) := by
  have hstable : ∀ φ : Prop, Stable Env (fun _ => True) fun _ => φ := fun φ =>
    ⟨fun _ _ _ h => h, fun _ _ => trivial⟩
  induction segs generalizing offset with
  | nil => exact Triple.conseq (Triple.pure (hstable _)) (fun _ _ => rfl) fun _ _ h => h
  | cons q next ih =>
      refine Triple.bind Triple.trivial fun _ => Triple.bind (ih _) fun r => ?_
      refine Triple.conseq (Triple.pure (hstable _)) (fun _ hr => ?_) fun _ _ h => h
      rw [hr]
      rfl

/-- What a call touches. -/
def accesses (p : Pbuf) (busy : Bool) : List (Nat × Nat) :=
  if busy then [] else copyRanges p.segs 0 ++
    (if offsetAfter p.segs 0 = p.tot_len then [(0, p.tot_len.toNat)] else [])

theorem triple_translateTraced (p : Pbuf) (b : Bool) :
    Triple Env (fun _ => True) (fun w => w.bTxBusy = b) (translateTraced p)
      fun r _ => r.2 = accesses p b := by
  have hbusy : Stable Env (fun _ => True) fun w => w.bTxBusy = b := by
    refine ⟨fun w w' h hw => ?_, fun _ _ => trivial⟩
    rw [← hw]
    cases h <;> rfl
  have hstable : ∀ φ : Prop, Stable Env (fun _ => True) fun _ => φ := fun φ =>
    ⟨fun _ _ _ h => h, fun _ _ => trivial⟩
  have hend : ∀ r : Err × List (Nat × Nat), r.2 = accesses p b →
      Triple Env (fun _ => True) (fun _ => True) (pure r : Fw (Err × List (Nat × Nat)))
        fun r _ => r.2 = accesses p b := fun r hr =>
    Triple.conseq (Triple.pure (Q := fun r _ => r.2 = accesses p b) (hstable _)) (fun _ _ => hr)
      fun _ _ h => h
  have hbody : Triple Env (fun _ => True) (fun w => w.bTxBusy = b) (translateBodyTraced p)
      fun r _ => r.2 = accesses p b := by
    unfold translateBodyTraced
    refine Triple.bind (M := fun busy _ => busy = b) ?_ fun busy => ?_
    · exact Triple.gets hbusy (fun _ => hstable _) fun _ hw => hw
    refine Triple.conseq (Triple.of_pure (φ := busy = b) (P := fun _ => True) fun hb => ?_)
      (fun _ h => ⟨h, trivial⟩) fun _ _ h => h
    subst hb
    by_cases hb : busy = true
    · rw [if_neg (not_not.mpr hb)]
      exact hend _ (by rw [accesses, if_pos hb])
    rw [if_pos hb]
    refine Triple.bind (triple_copySegsTraced p.segs 0) fun c => ?_
    refine Triple.conseq (Triple.of_pure (φ := c = _) (P := fun _ => True) fun hc => ?_)
      (fun _ h => ⟨h, trivial⟩) fun _ _ h => h
    subst hc
    by_cases htot : offsetAfter p.segs 0 = p.tot_len
    · rw [if_neg (not_not.mpr htot)]
      refine Triple.bind Triple.trivial fun _ => Triple.bind Triple.trivial fun _ => hend _ ?_
      rw [accesses, if_neg hb, if_pos htot]
    · rw [if_pos htot]
      refine hend _ ?_
      rw [accesses, if_neg hb, if_neg htot, List.append_nil]
  unfold translateTraced
  refine Triple.bind (M := fun _ w => w.bTxBusy = b) ?_ fun _ => ?_
  · exact Triple.modify hbusy (fun _ => hbusy) fun _ hw => hw
  refine Triple.bind hbody fun r => ?_
  refine Triple.conseq (Triple.of_pure (φ := r.2 = accesses p b) (P := fun _ => True) fun hr => ?_)
    (fun _ h => ⟨h, trivial⟩) fun _ _ h => h
  exact Triple.bind Triple.trivial fun _ => hend r hr

/-- `SIZEOF_ETH_HDR`. -/
def SIZEOF_ETH_HDR : Nat := 14

/-- **Transmit buffer bound.**  Whatever goes on beside the call, a frame that the
interface's mtu permits is copied and read inside `txPkt.data` just when nothing
is copied at all or the frame has at most 1500 bytes. -/
theorem accesses_bounded_iff {p : Pbuf} (htot : p.bytes.length = p.tot_len.toNat)
    (hmtu : p.tot_len.toNat ≤ (ethernet_init dev).mtu.toNat + SIZEOF_ETH_HDR) :
    translate p = (translateTraced p >>= fun r => pure r.1) ∧
      ∀ w w' err acc, Steps Env (translateTraced p, w) (pure (err, acc), w') →
        ((∀ a ∈ acc, ∀ i < a.2, a.1 + i < 1500) ↔
          w.bTxBusy = true ∨ p.tot_len.toNat ≤ 1500) := by
  have hle : p.tot_len.toNat ≤ 1514 := hmtu
  have hlt : (0 : BitVec 16).toNat + (segBytes p.segs).length < 2 ^ 16 := by
    show 0 + p.bytes.length < 2 ^ 16
    omega
  refine ⟨translate_eq p, fun w w' err acc h => ?_⟩
  have hacc : acc = accesses p w.bTxBusy :=
    ((triple_translateTraced p w.bTxBusy w rfl).steps h w' .refl).2
  have hoff : offsetAfter p.segs 0 = p.tot_len := by
    refine BitVec.eq_of_toNat_eq ?_
    rw [toNat_offsetAfter p.segs hlt, ← htot]
    exact Nat.zero_add _
  subst hacc
  by_cases hb : w.bTxBusy = true
  · rw [accesses, if_pos hb]
    exact ⟨fun _ => .inl hb, fun _ a ha => absurd ha List.not_mem_nil⟩
  rw [accesses, if_neg hb, if_pos hoff]
  constructor
  · intro hall
    refine .inr ?_
    by_contra hbig
    have := hall (0, p.tot_len.toNat) (List.mem_append_right _ (List.mem_singleton_self _)) 1500
      (by omega)
    omega
  · intro hcond a ha i hi
    have hsmall := hcond.resolve_left hb
    rcases List.mem_append.mp ha with ha | ha
    · have hr := copyRanges_le p.segs hlt ha
      have hlen : (0 : BitVec 16).toNat + (segBytes p.segs).length = p.bytes.length :=
        Nat.zero_add _
      omega
    · rw [List.mem_singleton.mp ha] at hi ⊢
      omega

/-- The small frame stays inside. -/
theorem accesses_bounded_iff_threeSegs :
    ∃ w' acc, Steps Env (translateTraced threeSegs, World.powerOn) (pure (.ERR_OK, acc), w') ∧
      ∀ a ∈ acc, ∀ i < a.2, a.1 + i < 1500 := by
  have hrun : (run (translateTraced threeSegs) World.powerOn).map (fun r => r.1.1) =
      some .ERR_OK := by decide +kernel
  obtain ⟨⟨⟨_, acc⟩, w'⟩, hw, rfl⟩ := Option.map_eq_some_iff.mp hrun
  have hsteps := steps_of_run Env hw
  have hiff := (accesses_bounded_iff (p := threeSegs) rfl (by decide)).2 _ _ _ _ hsteps
  exact ⟨w', acc, hsteps, hiff.mpr (.inr (by decide))⟩

/-- The largest frame the interface permits, in one segment. -/
def fullFrame : Pbuf :=
  ⟨[⟨List.replicate 1514 0xAA, by rw [List.length_replicate]; decide⟩], 1514⟩

/-- It runs past the array. -/
theorem not_accesses_bounded_fullFrame :
    ¬ ∀ (p : Pbuf) (w w' : World) (err : Err) (acc : List (Nat × Nat)),
      p.bytes.length = p.tot_len.toNat →
      p.tot_len.toNat ≤ (ethernet_init dev).mtu.toNat + SIZEOF_ETH_HDR →
      Steps Env (translateTraced p, w) (pure (err, acc), w') →
      ∀ a ∈ acc, ∀ i < a.2, a.1 + i < 1500 := by
  intro h
  have hbytes : fullFrame.bytes = List.replicate 1514 0xAA := List.append_nil _
  have hlen : fullFrame.bytes.length = fullFrame.tot_len.toNat := by
    rw [hbytes, List.length_replicate]
    rfl
  have hoff : offsetAfter fullFrame.segs 0 = fullFrame.tot_len := by
    show (0 : BitVec 16) + BitVec.ofNat 16 (List.replicate 1514 0xAA).length = 1514
    rw [List.length_replicate]
    rfl
  obtain ⟨w', hrun, -⟩ := run_translate_sent (w := World.powerOn) (t := .start)
    ⟨by decide, rfl, rfl⟩ fullFrame rfl hoff
  rw [translate_eq, run_bind, Option.bind_eq_some_iff] at hrun
  obtain ⟨⟨⟨err, acc⟩, w1⟩, hrun, -⟩ := hrun
  have hsteps := steps_of_run Env hrun
  have hacc : acc = accesses fullFrame false :=
    ((triple_translateTraced fullFrame false World.powerOn rfl).steps hsteps w1 .refl).2
  have hmem : (0, 1514) ∈ acc := by
    rw [hacc, accesses, if_neg (by decide), if_pos hoff]
    exact List.mem_append_right _ (List.mem_singleton_self _)
  exact absurd (h _ _ _ _ _ hlen (by decide) hsteps _ hmem 1500 (by decide)) (by decide)

end Enc28j60
