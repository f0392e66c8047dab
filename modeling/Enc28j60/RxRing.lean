import Enc28j60.Access
import Enc28j60.Buffer

/-!
# Enc28j60.RxRing

The receive ring between the chip, which appends frames at ERXWRPT, and the
firmware, which gives their space back through ERXRDPT.

`RxRing c q r` says of a chip that the frames accepted after the first `r` lie
one behind the other from `q` on, that the last byte the firmware has freed is
the one before `q`, and that two bytes at least stay free; so ERXWRPT never
catches up with ERXRDPT.  A reception keeps it, and so does everything the
driver does outside the ring.
-/

namespace Enc28j60

namespace Chip

/-- A frame as it lies in the ring, followed by a frame at `next`. -/
def image (next : Nat) (f : RxFrame) : List Byte := f.record (BitVec.ofNat 16 next)

/-- The cell before `q`. -/
def ringPred (q : Nat) : Nat := (q + (ringSize - 1)) % ringSize

/-- The frames after the first `r` are in the ring from `q` on. -/
structure RxRing (c : Chip) (q r : Nat) : Prop where
  regs : RingRegs c
  laid : Ring.Laid footprint image c.mem ringSize q (c.accepted.drop r) c.erxwrpt.toNat
  lt : q < ringSize
  even : q % 2 = 0
  used : Ring.used footprint (c.accepted.drop r) + 2 ≤ ringSize
  lock : (c.ptr ERXRDPT).toNat = ringPred q
  le : r ≤ c.accepted.length

/-! ## sizes -/

theorem length_image (next : Nat) (f : RxFrame) : (image next f).length = 6 + f.data.length := by
  unfold image RxFrame.record
  rw [List.length_append]
  rfl

theorem length_image_le (next : Nat) (f : RxFrame) : (image next f).length ≤ footprint f := by
  rw [length_image]
  unfold footprint
  omega

/-- Frames are padded to an even start. -/
theorem footprint_even (f : RxFrame) : footprint f % 2 = 0 := by
  unfold footprint
  omega

theorem used_even (rs : List (Nat × RxFrame)) : Ring.used footprint rs % 2 = 0 := by
  induction rs with
  | nil => rfl
  | cons r rs ih =>
      rw [Ring.used_cons]
      have := footprint_even r.2
      omega

/-! ## reception -/

variable {c c' : Chip} {q r : Nat}

theorem RxRing.erxwrpt_eq (h : RxRing c q r) :
    c.erxwrpt.toNat = (q + Ring.used footprint (c.accepted.drop r)) % ringSize :=
  h.laid.end_eq h.lt

/-- The chip's formula for the free space counts what the frames leave, less two
bytes. -/
theorem RxRing.freeSpace_eq (h : RxRing c q r) :
    c.freeSpace = ringSize - 2 - Ring.used footprint (c.accepted.drop r) := by
  have heven := used_even (c.accepted.drop r)
  have hw := h.erxwrpt_eq
  have hused := h.used
  have hlock := h.lock
  have hq := h.lt
  have hqe := h.even
  have hst : (c.ptr ERXST).toNat = 0 := congrArg BitVec.toNat h.regs.erxst
  have hnd : (c.ptr ERXND).toNat = 0x17FF := congrArg BitVec.toNat h.regs.erxnd
  unfold freeSpace
  simp only [hst, hnd]
  unfold ringPred ringSize at *
  split_ifs <;> omega

theorem RxRing.ringAddr_eq (h : RxRing c q r) (p k : Nat) :
    c.ringAddr p k = (p + k) % ringSize := by
  have hst : (c.ptr ERXST).toNat = 0 := congrArg BitVec.toNat h.regs.erxst
  have hnd : (c.ptr ERXND).toNat = 0x17FF := congrArg BitVec.toNat h.regs.erxnd
  unfold ringAddr
  rw [hst, hnd]
  simp [ringSize]

theorem toNat_ofNat_mod (n : Nat) : (BitVec.ofNat 16 (n % ringSize)).toNat = n % ringSize := by
  rw [BitVec.toNat_ofNat]
  have : n % ringSize < ringSize := Nat.mod_lt _ (by decide)
  unfold ringSize at *
  omega

theorem RxRing.receive_mem (h : RxRing c q r) (f : RxFrame) :
    (c.receive f).mem = Ring.store c.mem ringSize c.erxwrpt.toNat
      (image ((c.erxwrpt.toNat + footprint f) % ringSize) f) := by
  funext i
  unfold receive Ring.store nextStart
  simp only [h.ringAddr_eq]
  unfold image
  cases hf : (List.range (f.record _).length).find? _ with
  | none => rfl
  | some k =>
      have hk := List.mem_range.mp (List.mem_of_find?_eq_some hf)
      simp [List.getD_eq_getElem?_getD, List.getElem?_eq_getElem hk]

/-- An accepted frame is appended; the frames in the ring stay as they are. -/
theorem RxRing.receive (h : RxRing c q r) {f : RxFrame} (hf : c.accepts f) :
    RxRing (c.receive f) q r := by
  have hdrop : (c.receive f).accepted.drop r = c.accepted.drop r ++ [(c.erxwrpt.toNat, f)] :=
    List.drop_append_of_le_length h.le
  have hspace := hf.2.2
  have hused := h.used
  rw [h.freeSpace_eq] at hspace
  refine ⟨⟨h.regs.erxst, h.regs.erxnd, h.regs.autoinc⟩, ?_, h.lt, h.even, ?_, h.lock, ?_⟩
  · have hnext : (c.receive f).erxwrpt.toNat = (c.erxwrpt.toNat + footprint f) % ringSize := by
      show (BitVec.ofNat 16 (c.nextStart f)).toNat = _
      unfold nextStart
      rw [h.ringAddr_eq, toNat_ofNat_mod]
    rw [hdrop, hnext, h.receive_mem]
    exact h.laid.append h.lt length_image_le (by omega)
  · rw [hdrop, Ring.used_append, Ring.used_cons, Ring.used_nil]
    dsimp only
    omega
  · show r ≤ (c.accepted ++ [_]).length
    rw [List.length_append]
    exact Nat.le_add_right_of_le h.le

/-! ## release -/

/-- The oldest frame's record starts at `q`. -/
theorem RxRing.front (h : RxRing c q r) {a : Nat} {f : RxFrame}
    (hf : c.accepted[r]? = some (a, f)) :
    a = q ∧ Ring.load c.mem ringSize q (6 + f.data.length) =
        image ((q + footprint f) % ringSize) f ∧
      Ring.Laid footprint image c.mem ringSize ((q + footprint f) % ringSize)
        (c.accepted.drop (r + 1)) c.erxwrpt.toNat ∧
      Ring.used footprint (c.accepted.drop r) =
        footprint f + Ring.used footprint (c.accepted.drop (r + 1)) := by
  obtain ⟨hlt, heq⟩ := List.getElem?_eq_some_iff.mp hf
  have hlaid := h.laid
  rw [List.drop_eq_getElem_cons hlt, heq] at hlaid
  obtain ⟨ha, hload, hnext⟩ := hlaid
  rw [length_image] at hload
  refine ⟨ha, hload, hnext, ?_⟩
  rw [List.drop_eq_getElem_cons hlt, heq, Ring.used_cons]

/-- Nothing is unread: the next frame will start at `q`. -/
theorem RxRing.erxwrpt_of_none (h : RxRing c q r) (hn : c.accepted[r]? = none) :
    c.erxwrpt.toNat = q := by
  have hlaid := h.laid
  rw [List.drop_eq_nil_iff.mpr (List.getElem?_eq_none_iff.mp hn)] at hlaid
  exact hlaid.symm

/-- Writing ERXRDPT gives the space of the oldest frame back. -/
theorem RxRing.release (h : RxRing c q r) {a : Nat} {f : RxFrame}
    (hf : c.accepted[r]? = some (a, f)) (hregs : RingRegs c') (hmem : c'.mem = c.mem)
    (hw : c'.erxwrpt = c.erxwrpt) (hacc : c'.accepted = c.accepted)
    (hlock : (c'.ptr ERXRDPT).toNat = ringPred ((q + footprint f) % ringSize)) :
    RxRing c' ((q + footprint f) % ringSize) (r + 1) := by
  obtain ⟨_, _, hnext, hused⟩ := h.front hf
  have hlt := (List.getElem?_eq_some_iff.mp hf).1
  have heven := footprint_even f
  have hqe := h.even
  have hle := h.used
  refine ⟨hregs, ?_, Nat.mod_lt _ (by decide), ?_, ?_, hlock, ?_⟩
  · rw [hmem, hw, hacc]
    exact hnext
  · unfold ringSize
    omega
  · rw [hacc]
    omega
  · rw [hacc]
    exact hlt

/-! ## the rest of the chip -/

/-- The registers the ring depends on: its bounds and ERXRDPT. -/
def ringRegs : List (BitVec 5) := [0x08, 0x09, 0x0A, 0x0B, 0x0C, 0x0D]

/-- A step outside the ring. -/
structure RxSame (c c' : Chip) : Prop where
  regs : ∀ a ∈ ringRegs, c'.regs 0 a = c.regs 0 a
  mem : ∀ i < ringSize, c'.mem i = c.mem i
  autoinc : c'.autoinc = c.autoinc
  epktcnt : c'.epktcnt = c.epktcnt
  erxwrpt : c'.erxwrpt = c.erxwrpt
  accepted : c'.accepted = c.accepted

theorem RxSame.of_eq (hregs : c'.regs = c.regs)
    (hmem : c'.mem = c.mem) (hecon2 : c'.econ2 = c.econ2) (hcnt : c'.epktcnt = c.epktcnt)
    (hw : c'.erxwrpt = c.erxwrpt) (hacc : c'.accepted = c.accepted) : RxSame c c' :=
  ⟨fun _ _ => by rw [hregs], fun _ _ => by rw [hmem], congrArg (·.getLsbD 7) hecon2, hcnt,
    hw, hacc⟩

theorem RxSame.refl (c : Chip) : RxSame c c := .of_eq rfl rfl rfl rfl rfl rfl

theorem RxSame.trans {c'' : Chip} (h : RxSame c c') (h' : RxSame c' c'') : RxSame c c'' where
  regs a ha := (h'.regs a ha).trans (h.regs a ha)
  mem i hi := (h'.mem i hi).trans (h.mem i hi)
  autoinc := h'.autoinc.trans h.autoinc
  epktcnt := h'.epktcnt.trans h.epktcnt
  erxwrpt := h'.erxwrpt.trans h.erxwrpt
  accepted := h'.accepted.trans h.accepted

theorem RxSame.ptr (h : RxSame c c') {a : BitVec 5} (ha : a ∈ ringRegs) (ha' : a + 1 ∈ ringRegs) :
    c'.ptr a = c.ptr a := by
  unfold Chip.ptr
  rw [h.regs _ ha, h.regs _ ha']

theorem RxSame.ring (h : RxSame c c') (hr : RxRing c q r) : RxRing c' q r where
  regs := ⟨(h.ptr (by decide) (by decide)).trans hr.regs.erxst,
    (h.ptr (by decide) (by decide)).trans hr.regs.erxnd, h.autoinc.trans hr.regs.autoinc⟩
  laid := by
    rw [h.accepted, h.erxwrpt]
    exact hr.laid.congr length_image_le fun j _ => h.mem _ (Nat.mod_lt _ (by decide))
  lt := hr.lt
  even := hr.even
  used := by
    rw [h.accepted]
    exact hr.used
  lock := (congrArg BitVec.toNat (h.ptr (by decide) (by decide))).trans hr.lock
  le := by
    rw [h.accepted]
    exact hr.le

theorem rxSame_setReg {b : BitVec 2} {a : BitVec 5} (v : Byte) (h : b = 0 → a ∉ ringRegs) :
    RxSame c (c.setReg b a v) where
  regs a' ha' := by
    have hne : ¬(0 = b ∧ a' = a) := fun ⟨hb, haa⟩ => h hb.symm (haa ▸ ha')
    exact if_neg hne
  mem _ _ := rfl
  autoinc := rfl
  epktcnt := rfl
  erxwrpt := rfl
  accepted := rfl

theorem rxSame_miiRead : RxSame c c.miiRead := by
  unfold miiRead
  split <;> exact .of_eq rfl rfl rfl rfl rfl rfl

theorem rxSame_miiWrite (v : Byte) : RxSame c (c.miiWrite v) := .of_eq rfl rfl rfl rfl rfl rfl

theorem rxSame_writeBanked {b : BitVec 2} {a : BitVec 5} (v : Byte) (h : a ∉ ringRegs) :
    RxSame c (c.writeBanked b a v) := by
  have hset : RxSame c (c.setReg b a v) := rxSame_setReg v fun _ => h
  simp only [ringRegs, List.mem_cons, List.not_mem_nil, or_false, not_or] at h
  obtain ⟨h8, h9, _, _, hc, hd⟩ := h
  refine writeBanked_elim (fun hlow => absurd hlow.2 hc) (fun hhigh => absurd hhigh.2 hd)
    (fun hstart => ?_) (RxSame.refl c) hset (fun _ _ => hset.trans rxSame_miiRead)
    (hset.trans (rxSame_miiWrite v))
  rcases hstart.2 with h | h
  · exact absurd h h8
  · exact absurd h h9

/-- Registers that do not concern the ring: all but its own and ECON2. -/
def NotRing (a : BitVec 5) : Prop := a ∉ ringRegs ∧ a ≠ 0x1E

theorem rxSame_writeReg {a : BitVec 5} (v : Byte) (h : NotRing a) : RxSame c (c.writeReg a v) := by
  unfold writeReg
  split_ifs with h1 h2 h3 h4
  · exact .of_eq rfl rfl rfl rfl rfl rfl
  · exact .of_eq rfl rfl rfl rfl rfl rfl
  · exact .of_eq rfl rfl rfl rfl rfl rfl
  · exact absurd h4 h.2
  · exact absurd h4 h.2
  · exact .of_eq rfl rfl rfl rfl rfl rfl
  · exact rxSame_writeBanked v h.1

theorem rxSame_readBuffer (n : Nat) (c : Chip) : RxSame c (readBuffer n c).2 := by
  induction n generalizing c with
  | zero => exact RxSame.refl c
  | succ n ih =>
      have hset : RxSame c (c.setPtr ERDPT c.nextRead) :=
        (rxSame_setReg _ fun _ => by decide).trans (rxSame_setReg _ fun _ => by decide)
      unfold readBuffer
      split
      · exact hset.trans (ih _)
      · exact ih c

/-- A block that fits the transmit buffer is written past the ring. -/
theorem rxSame_writeBuffer (vs : List Byte) {c : Chip}
    (h : vs ≠ [] → ringSize ≤ (c.ptr EWRPT).toNat ∧ (c.ptr EWRPT).toNat + vs.length ≤ 0x2000) :
    RxSame c (writeBuffer vs c) := by
  induction vs generalizing c with
  | nil => exact RxSame.refl c
  | cons v vs ih =>
      obtain ⟨hge, hle⟩ := h (List.cons_ne_nil v vs)
      rw [List.length_cons] at hle
      let c1 : Chip := { c with mem := fun i => if i = (c.ptr EWRPT).toNat then v else c.mem i }
      have hmem : RxSame c c1 :=
        ⟨fun _ _ => rfl, fun i hi => if_neg (by omega), rfl, rfl, rfl, rfl⟩
      have hset : RxSame c1 (c1.setPtr EWRPT ((c.ptr EWRPT + 1) &&& 0x1FFF)) :=
        (rxSame_setReg _ fun _ => by decide).trans (rxSame_setReg _ fun _ => by decide)
      unfold writeBuffer
      dsimp only
      split
      · refine (hmem.trans hset).trans (ih fun hne => ?_)
        have hpos : 0 < vs.length := List.length_pos_iff.mpr hne
        have hptr : ((c1.setPtr EWRPT ((c.ptr EWRPT + 1) &&& 0x1FFF)).ptr EWRPT).toNat =
            (c.ptr EWRPT).toNat + 1 := by
          rw [show ∀ v, (c1.setPtr EWRPT v).ptr EWRPT = v from fun v => by
            simp [Chip.ptr, setPtr, setReg, word_hi_lo]]
          rw [BitVec.toNat_and, BitVec.toNat_add]
          rw [show (c.ptr EWRPT).toNat + (1 : BitVec 16).toNat = (c.ptr EWRPT).toNat + 1 from rfl]
          rw [Nat.mod_eq_of_lt (by omega)]
          exact Nat.and_two_pow_sub_one_of_lt_two_pow (n := 13) (by omega)
        rw [hptr]
        omega
      · refine hmem.trans (ih fun hne => ?_)
        show ringSize ≤ (c.ptr EWRPT).toNat ∧ (c.ptr EWRPT).toNat + vs.length ≤ 0x2000
        omega

/-- Bank switches and polls change no register outside ECON1. -/
theorem rxSame_of_blind (h : ChipStep (fun _ => False) c c') :
    RxSame c c' ∧ c'.regs = c.regs ∧ c'.erxrdptl = c.erxrdptl := by
  cases h with
  | bank v hv => exact ⟨.of_eq rfl rfl rfl rfl rfl rfl, rfl, rfl⟩
  | write a v ha => exact ha.elim
  | poll a =>
      unfold poll
      repeat' split
      all_goals exact ⟨.of_eq rfl rfl rfl rfl rfl rfl, rfl, rfl⟩
  | read n ha => exact ha.elim
  | fill vs ha => exact ha.elim

/-- The chip by itself only appends. -/
theorem rx_of_event (h : Event c c') :
    (∃ f, c.accepts f ∧ c' = c.receive f) ∨ RxSame c c' := by
  cases h with
  | receive f hf => exact .inl ⟨f, hf, rfl⟩
  | txEnd err hrts => exact .inr (.of_eq rfl rfl rfl rfl rfl rfl)
  | raise flag hflag => exact .inr (.of_eq rfl rfl rfl rfl rfl rfl)
  | linkChange => exact .inr (.of_eq rfl rfl rfl rfl rfl rfl)
  | phyStatus a v ha => exact .inr (.of_eq rfl rfl rfl rfl rfl rfl)

end Chip

end Enc28j60
