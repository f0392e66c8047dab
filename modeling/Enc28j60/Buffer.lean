import Enc28j60.Lib.Ring
import Enc28j60.Commands
import Enc28j60.Image

/-!
# Enc28j60.Buffer

The buffer memory commands on the ring `enc28j60_strtDr` programs: the receive
buffer is [0x0000, 0x17FF], the rest of the 8 KiB is the transmit buffer.

A read returns the ring's cells from ERDPT on and leaves ERDPT behind them; a
write that starts in the transmit buffer and fits there does not reach the ring.
-/

namespace Enc28j60

namespace Chip

/-! ## pointers -/

@[simp] theorem ptr_setPtr (c : Chip) (v : BitVec 16) : (c.setPtr ERDPT v).ptr ERDPT = v := by
  simp [ptr, setPtr, setReg, word_hi_lo]

theorem length_readBuffer (n : Nat) (c : Chip) : (readBuffer n c).1.length = n := by
  induction n generalizing c with
  | zero => rfl
  | succ n ih =>
      unfold readBuffer
      rw [List.length_cons, ih]

/-- Cells of the receive ring. -/
def ringSize : Nat := 0x1800

/-- The ring's bounds, and AUTOINC. -/
structure RingRegs (c : Chip) : Prop where
  erxst : c.ptr ERXST = 0x0000
  erxnd : c.ptr ERXND = 0x17FF
  autoinc : c.autoinc = true

/-- ERDPT runs round the ring. -/
theorem toNat_nextRead {c : Chip} (h : RingRegs c) (hq : (c.ptr ERDPT).toNat < ringSize) :
    c.nextRead.toNat = ((c.ptr ERDPT).toNat + 1) % ringSize := by
  unfold nextRead
  rw [h.erxst, h.erxnd]
  have hmask : ∀ v : BitVec 16, v.toNat < 0x17FF → ((v + 1) &&& 0x1FFF).toNat = v.toNat + 1 := by
    intro v hv
    have h1 : (v + 1).toNat = v.toNat + 1 := by
      rw [BitVec.toNat_add]
      exact Nat.mod_eq_of_lt (by simp; omega)
    rw [BitVec.toNat_and, h1]
    exact Nat.and_two_pow_sub_one_of_lt_two_pow (n := 13) (by omega)
  unfold ringSize at *
  by_cases hend : c.ptr ERDPT = 0x17FF
  · rw [if_pos hend, hend]
    rfl
  · rw [if_neg hend]
    have hne : (c.ptr ERDPT).toNat ≠ 0x17FF := fun heq => hend (BitVec.eq_of_toNat_eq heq)
    rw [hmask _ (by omega), Nat.mod_eq_of_lt (by omega)]

theorem ringRegs_setPtr {c : Chip} (h : RingRegs c) (v : BitVec 16) :
    RingRegs (c.setPtr ERDPT v) := by
  refine ⟨?_, ?_, h.autoinc⟩
  · rw [← h.erxst]
    simp [ptr, setPtr, setReg]
  · rw [← h.erxnd]
    simp [ptr, setPtr, setReg]

/-- A read at ERDPT returns a block of the ring. -/
theorem readBuffer_fst {c : Chip} (h : RingRegs c) (hq : (c.ptr ERDPT).toNat < ringSize) (n : Nat) :
    (readBuffer n c).1 = Ring.load c.mem ringSize (c.ptr ERDPT).toNat n := by
  induction n generalizing c with
  | zero => rfl
  | succ n ih =>
      have hnext := toNat_nextRead h hq
      have hlt : c.nextRead.toNat < ringSize := by
        rw [hnext]
        exact Nat.mod_lt _ (by decide)
      unfold readBuffer
      rw [Ring.load_succ, Nat.mod_eq_of_lt hq]
      simp only [h.autoinc, if_true]
      rw [ih (ringRegs_setPtr h _) (by rwa [ptr_setPtr]), ptr_setPtr, hnext, Ring.load_mod]
      rfl

/-- It leaves ERDPT behind the block. -/
theorem ptr_readBuffer {c : Chip} (h : RingRegs c) (hq : (c.ptr ERDPT).toNat < ringSize) (n : Nat) :
    ((readBuffer n c).2.ptr ERDPT).toNat = ((c.ptr ERDPT).toNat + n) % ringSize := by
  induction n generalizing c with
  | zero => exact (Nat.mod_eq_of_lt hq).symm
  | succ n ih =>
      have hnext := toNat_nextRead h hq
      have hlt : c.nextRead.toNat < ringSize := by
        rw [hnext]
        exact Nat.mod_lt _ (by decide)
      unfold readBuffer
      simp only [h.autoinc, if_true]
      rw [ih (ringRegs_setPtr h _) (by rwa [ptr_setPtr]), ptr_setPtr, hnext, Nat.mod_add_mod]
      rw [Nat.add_assoc, Nat.add_comm 1 n]

end Chip

end Enc28j60
