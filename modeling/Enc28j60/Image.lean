import Enc28j60.World

/-!
# Enc28j60.Image

The packet image: what a store leaves in a 16-bit field, and which fields it
does not reach.
-/

namespace Enc28j60

/-! ## bytes and words -/

theorem word_hi_lo (v : BitVec 16) : word (hi v) (lo v) = v := by
  unfold word hi lo
  ext i hlt
  simp only [BitVec.getElem_append, BitVec.getElem_setWidth, BitVec.getLsbD_ushiftRight]
  split
  · rw [BitVec.getLsbD_eq_getElem]
  · rw [show 8 + (i - 8) = i by omega, BitVec.getLsbD_eq_getElem]

namespace Dev

/-- The record with another cached bank; everything else is as in `d`. -/
def setBank (d : Dev) (bnBank : Bank) : Dev := { d with bnBank }

@[simp] theorem u16_setBank (d : Dev) (b : Bank) (off : Nat) : (d.setBank b).u16 off = d.u16 off :=
  rfl

@[simp] theorem setBank_setBank (d : Dev) (b b' : Bank) :
    (d.setBank b).setBank b' = d.setBank b' := rfl

variable {d : Dev} {off b : Nat} {bs : List Byte}

/-- A field outside the block keeps its value. -/
theorem u16_store_of_disjoint (h : b + 2 ≤ off ∨ off + bs.length ≤ b) :
    (d.store off bs).u16 b = d.u16 b := by
  simp only [u16, store]
  rcases h with h | h
  · rw [Mem.store_of_lt _ _ (by omega), Mem.store_of_lt _ _ (by omega)]
  · rw [Mem.store_of_ge _ _ (by omega), Mem.store_of_ge _ _ (by omega)]

/-- A field at the start of the block holds its first two bytes. -/
theorem u16_store (d : Dev) (off : Nat) (l h : Byte) (bs : List Byte) :
    (d.store off (l :: h :: bs)).u16 off = word h l := by
  have h0 : Mem.store d.pkt off (l :: h :: bs) (off + 0) = l := Mem.store_of_mem _ _ (by simp)
  have h1 : Mem.store d.pkt off (l :: h :: bs) (off + 1) = h := Mem.store_of_mem _ _ (by simp)
  unfold u16 store
  exact congrArg₂ word h1 h0

theorem u16_setU16 (d : Dev) (off : Nat) (v : BitVec 16) : (d.setU16 off v).u16 off = v := by
  unfold setU16
  rw [u16_store, word_hi_lo]

theorem u16_setU16_of_disjoint {v : BitVec 16} (h : b + 2 ≤ off ∨ off + 2 ≤ b) :
    (d.setU16 off v).u16 b = d.u16 b :=
  u16_store_of_disjoint h

end Dev

end Enc28j60
