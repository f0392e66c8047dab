import Enc28j60.Chip

/-!
# Enc28j60.Mqtt.Chain

A received pbuf chain and the functions of `pbuf.c` that read from it: what they
read is what they would read from the bytes of the chain in one piece
(`pbuf_try_get_at_eq`, `pbuf_get_contiguous_eq`).
-/

namespace Enc28j60.Mqtt

def TCP_MSS : Nat := 536
def TCP_WND : Nat := 4 * TCP_MSS

/-- The payloads of a chain's pbufs; `tot_len` is a `u16_t`. -/
structure Chain where
  bufs : List (List Byte)
  fits : bufs.flatten.length < 2 ^ 16

namespace Chain

def bytes (p : Chain) : List Byte := p.bufs.flatten

/-- `p->tot_len`. -/
def tot_len (p : Chain) : BitVec 16 := BitVec.ofNat 16 p.bytes.length

/-- `p->len`, of the first pbuf. -/
def len (p : Chain) : BitVec 16 := BitVec.ofNat 16 (p.bufs.headD []).length

@[simp] theorem toNat_tot_len (p : Chain) : p.tot_len.toNat = p.bytes.length := by
  have := p.fits
  simp only [tot_len, BitVec.toNat_ofNat]
  exact Nat.mod_eq_of_lt this

theorem head_le (p : Chain) : (p.bufs.headD []).length ≤ p.bytes.length := by
  unfold bytes
  cases p.bufs <;> simp

@[simp] theorem toNat_len (p : Chain) : p.len.toNat = (p.bufs.headD []).length := by
  have := p.fits
  have := p.head_le
  simp only [len, BitVec.toNat_ofNat]
  exact Nat.mod_eq_of_lt (by unfold bytes at *; omega)

end Chain

/-! ## reading -/

/-- `pbuf_skip_const`: the pbuf `in_offset` is in, with those behind it, and the offset in it. -/
def pbuf_skip_const : List (List Byte) → Nat → Option (List Byte × List (List Byte) × Nat)
  | [], _ => none
  | q :: next, offset_left =>
      if q.length ≤ offset_left then pbuf_skip_const next (offset_left - q.length)
      else some (q, next, offset_left)

/-- `pbuf_try_get_at`. -/
def pbuf_try_get_at (p : List (List Byte)) (offset : Nat) : Option Byte :=
  match pbuf_skip_const p offset with
  | some (q, _, q_idx) => q[q_idx]?
  | none => none

/-- `pbuf_get_at`. -/
def pbuf_get_at (p : List (List Byte)) (offset : Nat) : Byte := (pbuf_try_get_at p offset).getD 0

/-- `pbuf_copy_partial`, with what it copies. -/
def pbuf_copy_partial : List (List Byte) → Nat → Nat → List Byte
  | [], _, _ => []
  | p :: next, len, offset =>
      if len = 0 then []
      else if offset ≠ 0 ∧ p.length ≤ offset then pbuf_copy_partial next len (offset - p.length)
      else
        let copied := (p.drop offset).take len
        copied ++ pbuf_copy_partial next (len - copied.length) 0

/-- `pbuf_get_contiguous`: the bytes at the pointer it returns, and whether they have
been copied to the buffer. -/
def pbuf_get_contiguous (p : List (List Byte)) (bufsize len offset : Nat) :
    Option (List Byte × Bool) :=
  if bufsize < len then none
  else
    match pbuf_skip_const p offset with
    | some (q, next, out_offset) =>
        if out_offset + len ≤ q.length then some ((q.drop out_offset).take len, false)
        else
          let copied := pbuf_copy_partial (q :: next) len out_offset
          if copied.length ≠ len then none else some (copied, true)
    | none => none

/-! ## the chain in one piece -/

theorem pbuf_skip_const_spec {p : List (List Byte)} {offset : Nat}
    (h : offset < p.flatten.length) :
    ∃ q next i, pbuf_skip_const p offset = some (q, next, i) ∧ i < q.length ∧
      (q :: next).flatten.drop i = p.flatten.drop offset := by
  induction p generalizing offset with
  | nil => simp at h
  | cons q next ih =>
      rw [List.flatten_cons, List.length_append] at h
      by_cases hq : q.length ≤ offset
      · obtain ⟨q', next', i, hskip, hi, hdrop⟩ := @ih (offset - q.length) (by omega)
        refine ⟨q', next', i, by rw [pbuf_skip_const, if_pos hq, hskip], hi, ?_⟩
        rw [hdrop, List.flatten_cons, List.drop_append, List.drop_of_length_le hq,
          List.nil_append]
      · exact ⟨q, next, offset, by rw [pbuf_skip_const, if_neg hq], by omega, rfl⟩

theorem pbuf_skip_const_eq_none {p : List (List Byte)} {offset : Nat}
    (h : p.flatten.length ≤ offset) : pbuf_skip_const p offset = none := by
  induction p generalizing offset with
  | nil => rfl
  | cons q next ih =>
      rw [List.flatten_cons, List.length_append] at h
      rw [pbuf_skip_const, if_pos (by omega), ih (by omega)]

theorem pbuf_try_get_at_eq (p : List (List Byte)) (offset : Nat) :
    pbuf_try_get_at p offset = p.flatten[offset]? := by
  rcases Nat.lt_or_ge offset p.flatten.length with h | h
  · obtain ⟨q, next, i, hskip, hi, hdrop⟩ := pbuf_skip_const_spec h
    have hhead := congrArg List.head? hdrop
    rw [List.head?_drop, List.head?_drop, List.flatten_cons, List.getElem?_append_left hi] at hhead
    rw [pbuf_try_get_at, hskip, ← hhead]
  · rw [pbuf_try_get_at, pbuf_skip_const_eq_none h, List.getElem?_eq_none h]

theorem pbuf_get_at_eq {p : List (List Byte)} {offset : Nat} (h : offset < p.flatten.length) :
    p.flatten.drop offset = pbuf_get_at p offset :: p.flatten.drop (offset + 1) := by
  rw [List.drop_eq_getElem_cons h, pbuf_get_at, pbuf_try_get_at_eq, List.getElem?_eq_getElem h,
    Option.getD_some]

theorem pbuf_copy_partial_eq {p : List (List Byte)} {len offset : Nat} :
    pbuf_copy_partial p len offset = (p.flatten.drop offset).take len := by
  induction p generalizing len offset with
  | nil => simp [ pbuf_copy_partial]
  | cons q next ih =>
      rw [ pbuf_copy_partial, List.flatten_cons, List.drop_append]
      split
      · rename_i hlen
        simp [hlen]
      split
      · rename_i hskip
        rw [ih, List.drop_of_length_le hskip.2, List.nil_append]
      · rename_i hlen hskip
        dsimp only
        rw [ih, List.take_append, List.drop_zero]
        have hzero : offset - q.length = 0 := by omega
        have htake : len - ((q.drop offset).take len).length = len - (q.drop offset).length := by
          rw [List.length_take]
          omega
        rw [hzero, List.drop_zero, htake]

/-- What `pbuf_get_contiguous` points at, whatever pbufs the bytes are in. -/
theorem pbuf_get_contiguous_eq {p : List (List Byte)} {bufsize len offset : Nat}
    (hoffset : offset < p.flatten.length) (hlen : offset + len ≤ p.flatten.length)
    (hbuf : len ≤ bufsize) :
    ∃ copied, pbuf_get_contiguous p bufsize len offset =
      some ((p.flatten.drop offset).take len, copied) := by
  obtain ⟨q, next, i, hskip, hi, hdrop⟩ := pbuf_skip_const_spec hoffset
  rw [pbuf_get_contiguous, if_neg (by omega), hskip, ← hdrop]
  dsimp only
  split
  · rename_i hin
    refine ⟨false, ?_⟩
    rw [List.flatten_cons, List.drop_append_of_le_length (by omega),
      List.take_append_of_le_length (by rw [List.length_drop]; omega)]
  · rw [ pbuf_copy_partial_eq, if_neg]
    · exact ⟨true, rfl⟩
    · rw [hdrop, List.length_take, List.length_drop]
      omega

end Enc28j60.Mqtt
