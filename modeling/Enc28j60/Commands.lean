import Enc28j60.Regs

/-!
# Enc28j60.Commands

What the driver's command bytes make the chip do, and which of them can move
ECON1.BSEL: only a soft reset and a command that names ECON1 itself.
-/

namespace Enc28j60

namespace Chip

/-! ## decoding -/

theorem opcodeOf_or : ∀ r : Byte,
    opcodeOf (opcode.u8writeControlRegister ||| (0x1F &&& r)) = 0b010 ∧
    opcodeOf (opcode.u8BitFieldSet ||| (0x1F &&& r)) = 0b100 ∧
    opcodeOf (opcode.u8BitFieldClear ||| (0x1F &&& r)) = 0b101 := by
  decide

theorem addrOf_or : ∀ r : Byte,
    addrOf (opcode.u8readControlRegister ||| (0x1F &&& r)) = regAddr r ∧
    addrOf (opcode.u8writeControlRegister ||| (0x1F &&& r)) = regAddr r ∧
    addrOf (opcode.u8BitFieldSet ||| (0x1F &&& r)) = regAddr r ∧
    addrOf (opcode.u8BitFieldClear ||| (0x1F &&& r)) = regAddr r := by
  decide

theorem command_write (c : Chip) (r v : Byte) :
    c.command (opcode.u8writeControlRegister ||| (0x1F &&& r)) [v] = c.writeReg (regAddr r) v := by
  unfold command
  rw [(opcodeOf_or r).1, (addrOf_or r).2.1]
  rfl

theorem command_set (c : Chip) (r v : Byte) :
    c.command (opcode.u8BitFieldSet ||| (0x1F &&& r)) [v] = c.bitFieldSet (regAddr r) v := by
  unfold command
  rw [(opcodeOf_or r).2.1, (addrOf_or r).2.2.1]
  rfl

theorem command_clear (c : Chip) (r v : Byte) :
    c.command (opcode.u8BitFieldClear ||| (0x1F &&& r)) [v] = c.bitFieldClear (regAddr r) v := by
  unfold command
  rw [(opcodeOf_or r).2.2, (addrOf_or r).2.2.2]
  rfl

theorem command_writeBuffer (c : Chip) (vs : List Byte) :
    c.command opcode.u8WriteBufferMemory vs = writeBuffer vs c := rfl

/-- Setting ECON2.PKTDEC decrements EPKTCNT; the bit itself does not stay. -/
theorem command_pktDec (c : Chip) :
    c.command (opcode.u8BitFieldSet ||| (0x1F &&& bank0.ECON2)) [1 <<< 6] =
      { c with econ2 := (c.econ2 ||| 0x40) &&& 0xBF }.pktDec := by
  have hr : regAddr bank0.ECON2 = 0x1E := by decide
  have hbit : ∀ v : Byte, (v ||| 0x40).getLsbD 6 = true := by decide
  rw [command_set, hr]
  show (if (c.econ2 ||| 0x40).getLsbD 6 = true then _ else _) = _
  rw [if_pos (hbit c.econ2)]
  rfl

theorem command_softReset (c : Chip) : c.command opcode.u8SoftReset [] = c.softReset := rfl

/-- EIR is read without a dummy byte, in whatever bank, and without effect. -/
theorem readControl_eir (c : Chip) :
    c.readControl (opcode.u8readControlRegister ||| (0x1F &&& bank0.EIR)) 1 = (c.eirValue, c) := by
  have ha : addrOf (opcode.u8readControlRegister ||| (0x1F &&& bank0.EIR)) = 0x1C := by decide
  unfold readControl
  rw [ha]
  simp [readReg, poll]

/-! ## what a command can change -/

/-- The branches of a banked write. -/
theorem writeBanked_elim {P : Chip → Prop} {c : Chip} {b : BitVec 2} {a : BitVec 5} {v : Byte}
    (hlow : b = 0 ∧ a = 0x0C → P { c with erxrdptl := v })
    (hhigh : b = 0 ∧ a = 0x0D → P ((c.setReg 0 0x0C c.erxrdptl).setReg 0 0x0D v))
    (hstart : b = 0 ∧ (a = 0x08 ∨ a = 0x09) →
      P { c.setReg b a v with erxwrpt := (c.setReg b a v).ptr ERXST })
    (hsame : P c) (hset : P (c.setReg b a v))
    (hread : b = 2 ∧ a = 0x12 → v.getLsbD 0 = true → P (c.setReg b a v).miiRead)
    (hwrite : P ((c.setReg b a v).miiWrite v)) : P (c.writeBanked b a v) := by
  unfold writeBanked
  by_cases h1 : b = 0 ∧ a = 0x0C
  · rw [if_pos h1]
    exact hlow h1
  rw [if_neg h1]
  by_cases h2 : b = 0 ∧ a = 0x0D
  · rw [if_pos h2]
    exact hhigh h2
  rw [if_neg h2]
  by_cases h3 : b = 0 ∧ (a = 0x08 ∨ a = 0x09)
  · rw [if_pos h3]
    exact hstart h3
  rw [if_neg h3]
  by_cases h4 : b = 0 ∧ (a = 0x0E ∨ a = 0x0F)
  · rw [if_pos h4]
    exact hsame
  rw [if_neg h4]
  by_cases h5 : b = 1 ∧ a = 0x19
  · rw [if_pos h5]
    exact hsame
  rw [if_neg h5]
  by_cases h6 : b = 2 ∧ (a = 0x18 ∨ a = 0x19)
  · rw [if_pos h6]
    exact hsame
  rw [if_neg h6]
  by_cases h7 : b = 3 ∧ a = 0x0A
  · rw [if_pos h7]
    exact hsame
  rw [if_neg h7]
  by_cases h8 : b = 2 ∧ a = 0x12
  · rw [if_pos h8]
    by_cases hv : v.getLsbD 0 = true
    · rw [if_pos hv]
      exact hread h8 hv
    · rw [if_neg hv]
      exact hset
  rw [if_neg h8]
  by_cases h9 : b = 2 ∧ a = 0x17
  · rw [if_pos h9]
    exact hwrite
  · rw [if_neg h9]
    exact hset

/-- A banked write changes registers, the latch of ERXRDPTL and the receive write
pointer, and may start an MII access. -/
theorem writeBanked_rule {P : Chip → Prop} {c : Chip} {b : BitVec 2} {a : BitVec 5} {v : Byte}
    (hregs : ∀ regs latch wrpt, P { c with regs := regs, erxrdptl := latch, erxwrpt := wrpt })
    (hread : b = 2 ∧ a = 0x12 → v.getLsbD 0 = true → ∀ c', P c' → P c'.miiRead)
    (hwrite : ∀ c' h, P c' → P (c'.miiWrite h)) : P (c.writeBanked b a v) := by
  have hset : P (c.setReg b a v) := hregs _ _ _
  exact writeBanked_elim (fun _ => hregs _ _ _) (fun _ => hregs _ _ _) (fun _ => hregs _ _ _)
    (hregs _ _ _) hset (fun h hv => hread h hv _ hset) (hwrite _ v hset)

/-- A buffer read moves the read pointer. -/
theorem readBuffer_eq (n : Nat) (c : Chip) :
    ∃ regs, (readBuffer n c).2 = { c with regs := regs } := by
  induction n generalizing c with
  | zero => exact ⟨c.regs, rfl⟩
  | succ n ih =>
      unfold readBuffer
      split
      · obtain ⟨regs, hrest⟩ := ih (c.setPtr ERDPT c.nextRead)
        exact ⟨regs, hrest⟩
      · exact ih c

/-- A buffer write changes the memory, and moves the write pointer. -/
theorem writeBuffer_eq (vs : List Byte) (c : Chip) :
    ∃ regs mem, writeBuffer vs c = { c with regs := regs, mem := mem } := by
  induction vs generalizing c with
  | nil => exact ⟨c.regs, c.mem, rfl⟩
  | cons v vs ih =>
      unfold writeBuffer
      split
      · obtain ⟨regs, mem, hrest⟩ := ih (Chip.setPtr
          { c with mem := fun i => if i = (c.ptr EWRPT).toNat then v else c.mem i } EWRPT
          ((c.ptr EWRPT + 1) &&& 0x1FFF))
        exact ⟨regs, mem, hrest⟩
      · obtain ⟨regs, mem, hrest⟩ := ih
          { c with mem := fun i => if i = (c.ptr EWRPT).toNat then v else c.mem i }
        exact ⟨regs, mem, hrest⟩

/-! ## BSEL -/

@[simp] theorem setReg_econ1 (c : Chip) (b : BitVec 2) (a : BitVec 5) (v : Byte) :
    (c.setReg b a v).econ1 = c.econ1 := rfl

@[simp] theorem miiWrite_econ1 (c : Chip) (v : Byte) : (c.miiWrite v).econ1 = c.econ1 := rfl

@[simp] theorem miiRead_econ1 (c : Chip) : c.miiRead.econ1 = c.econ1 := by
  unfold miiRead
  split <;> rfl

@[simp] theorem pktDec_econ1 (c : Chip) : c.pktDec.econ1 = c.econ1 := rfl

@[simp] theorem writeBanked_econ1 (c : Chip) (b : BitVec 2) (a : BitVec 5) (v : Byte) :
    (c.writeBanked b a v).econ1 = c.econ1 :=
  writeBanked_rule (P := fun c' => c'.econ1 = c.econ1) (fun _ _ _ => rfl)
    (fun _ _ c' h => (miiRead_econ1 c').trans h) fun _ _ h => h

theorem writeReg_econ1_of_ne {c : Chip} {a : BitVec 5} (v : Byte) (h : a ≠ 0x1F) :
    (c.writeReg a v).econ1 = c.econ1 := by
  unfold writeReg
  repeat' split
  all_goals simp_all

theorem bsel_writeReg {c : Chip} {a : BitVec 5} (v : Byte) (h : a ≠ 0x1F) :
    (c.writeReg a v).bsel = c.bsel := by
  unfold bsel
  rw [writeReg_econ1_of_ne v h]

/-- ECON1 itself may be written by a bit field command that spares BSEL. -/
theorem bsel_bitFieldSet {c : Chip} {a : BitVec 5} {v : Byte}
    (h : a = 0x1F → v.setWidth 2 = (0 : BitVec 2)) : (c.bitFieldSet a v).bsel = c.bsel := by
  by_cases ha : a = 0x1F
  · subst ha
    have hv := h rfl
    unfold bitFieldSet bsel
    simp [writeReg, fieldValue, readReg, BitVec.setWidth_or, hv]
  · exact bsel_writeReg _ ha

theorem bsel_bitFieldClear {c : Chip} {a : BitVec 5} {v : Byte} (h : a ≠ 0x1F) :
    (c.bitFieldClear a v).bsel = c.bsel :=
  bsel_writeReg _ h

@[simp] theorem bsel_poll (c : Chip) (a : BitVec 5) : (c.poll a).bsel = c.bsel := by
  unfold poll
  repeat' split
  all_goals rfl

theorem eir_readBuffer (n : Nat) (c : Chip) : (readBuffer n c).2.eir = c.eir := by
  obtain ⟨_, h⟩ := readBuffer_eq n c
  rw [h]

theorem econ1_readBuffer (n : Nat) (c : Chip) : (readBuffer n c).2.econ1 = c.econ1 := by
  obtain ⟨_, h⟩ := readBuffer_eq n c
  rw [h]

theorem eir_writeBuffer (vs : List Byte) (c : Chip) : (writeBuffer vs c).eir = c.eir := by
  obtain ⟨_, _, h⟩ := writeBuffer_eq vs c
  rw [h]

theorem econ1_writeBuffer (vs : List Byte) (c : Chip) : (writeBuffer vs c).econ1 = c.econ1 := by
  obtain ⟨_, _, h⟩ := writeBuffer_eq vs c
  rw [h]

theorem bsel_readBuffer (n : Nat) (c : Chip) : (readBuffer n c).2.bsel = c.bsel := by
  unfold bsel
  rw [econ1_readBuffer]

theorem bsel_writeBuffer (vs : List Byte) (c : Chip) : (writeBuffer vs c).bsel = c.bsel := by
  unfold bsel
  rw [econ1_writeBuffer]

@[simp] theorem bsel_softReset (c : Chip) : c.softReset.bsel = 0 := rfl

end Chip

end Enc28j60
