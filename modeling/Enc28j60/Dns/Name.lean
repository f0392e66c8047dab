import Enc28j60.Dns.Dotted
import Enc28j60.Lib.Labels
import Enc28j60.Lib.Machine
import Enc28j60.Lib.Mem
import Enc28j60.Mqtt.Chain

/-!
# Enc28j60.Dns.Name

Names on the wire: how `dns_send` writes them, and how `dns_compare_name` and
`dns_skip_name` read them.

`dns_skip_name` goes behind labels that end with a zero or a pointer (`skip_iff`); for
`dns_compare_name` see `Enc28j60.Dns.Compare`.
-/

namespace Enc28j60.Dns

open Labels Mqtt

def DNS_MAX_NAME_LENGTH : Nat := 256
def SIZEOF_DNS_HDR : BitVec 16 := 12

variable {p : Chain}

/-! ## characters -/

/-- `tolower` of the C library. -/
def lwip_tolower (c : Byte) : Byte := if 0x41 ≤ c ∧ c ≤ 0x5a then c - 0x41 + 0x61 else c

/-! ## comparing -/

/-- What a loop over a name in a pbuf goes on with: the offset in the pbuf, and in the name. -/
abbrev Scan := Machine.Step (BitVec 16 × Nat) (BitVec 16)

/-- The inner loop of `dns_compare_name`, for the characters of one label. -/
def compareLabel (query : Nat → Byte) (p : Chain) : Nat → BitVec 16 → Nat → Scan
  | 0, response_offset, q => .next (response_offset, q)
  | n + 1, response_offset, q =>
      match pbuf_try_get_at p.bufs response_offset.toNat with
      | none => .ret 0xFFFF
      | some c =>
          if DNS_MAX_NAME_LENGTH ≤ q then .fault
          else if lwip_tolower (query q) ≠ lwip_tolower c then .ret 0xFFFF
          else if response_offset = 0xFFFF then .ret 0xFFFF
          else compareLabel query p n (response_offset + 1) (q + 1)

/-- The end of a round of `dns_compare_name`: what is behind the label. -/
def compareNext (p : Chain) (response_offset : BitVec 16) (q : Nat) : Scan :=
  match pbuf_try_get_at p.bufs response_offset.toNat with
  | none => .ret 0xFFFF
  | some n =>
      if n ≠ 0 then .next (response_offset, q)
      else if response_offset = 0xFFFF then .ret 0xFFFF
      else .ret (response_offset + 1)

/-- One round of `dns_compare_name`. -/
def compareRound (query : Nat → Byte) (p : Chain) (s : BitVec 16 × Nat) : Scan :=
  match pbuf_try_get_at p.bufs s.1.toNat with
  | none => .ret 0xFFFF
  | some n =>
      if s.1 = 0xFFFF then .ret 0xFFFF
      else if n &&& 0xc0 = 0xc0 then .ret 0xFFFF
      else
        match compareLabel query p n.toNat (s.1 + 1) s.2 with
        | .next s => compareNext p s.1 (s.2 + 1)
        | .ret r => .ret r
        | .fault => .fault

/-- Compare the "dotted" name `query` with the encoded name at `start_offset`: the offset
behind the name, or `0xFFFF`.  Each round reads a byte of the chain. -/
def dns_compare_name (query : Nat → Byte) (p : Chain) (start_offset : BitVec 16) : Scan :=
  Machine.run (compareRound query p) (p.bytes.length + 1) (start_offset, 0)

/-! ## skipping -/

/-- One round of `dns_skip_name`. -/
def skipRound (p : Chain) (offset : BitVec 16) : Machine.Step (BitVec 16) (BitVec 16) :=
  match pbuf_try_get_at p.bufs offset.toNat with
  | none => .ret 0xFFFF
  | some n =>
      let offset := offset + 1
      let done : Machine.Step (BitVec 16) (BitVec 16) :=
        if offset = 0xFFFF then .ret 0xFFFF else .ret (offset + 1)
      if offset = 0 then .ret 0xFFFF
      else if n &&& 0xc0 = 0xc0 then done
      else if p.tot_len.toNat ≤ offset.toNat + n.toNat then .ret 0xFFFF
      else
        let offset := offset + n.setWidth 16
        match pbuf_try_get_at p.bufs offset.toNat with
        | none => .ret 0xFFFF
        | some n =>
            if n ≠ 0 then .next offset
            else if offset = 0xFFFF then .ret 0xFFFF
            else .ret (offset + 1)

/-- Walk through a compact encoded DNS name and return the end of the name. -/
def dns_skip_name (p : Chain) (query_idx : BitVec 16) : Machine.Step (BitVec 16) (BitVec 16) :=
  Machine.run (skipRound p) (p.bytes.length + 1) query_idx

/-! ## sending -/

/-- The parts of a name between its dots. -/
def parts (hostname : List Byte) : List (List Byte) := hostname.splitOn dot

theorem parts_ne_nil (hostname : List Byte) : parts hostname ≠ [] :=
  List.splitOn_ne_nil dot hostname

/-- The name in a query: the parts, each behind its length, and a zero. -/
def encodeName (hostname : List Byte) : List Byte := wire (parts hostname) ++ [0]

/-- It takes the bytes that `dns_send` allocates for it. -/
theorem length_encodeName (hostname : List Byte) :
    (encodeName hostname).length = hostname.length + 2 := by
  simp [encodeName, parts, length_wire_splitOn]

/-! ## reading on -/

theorem getElem?_of_drop {off : Nat} {b : Byte} {bs : List Byte}
    (h : p.bytes.drop off = b :: bs) : pbuf_try_get_at p.bufs off = some b := by
  have hhead := congrArg List.head? h
  rw [List.head?_drop] at hhead
  rw [pbuf_try_get_at_eq]
  exact hhead

theorem getElem?_of_drop_nil {off : Nat} (h : p.bytes.drop off = []) :
    pbuf_try_get_at p.bufs off = none := by
  have hhead := congrArg List.head? h
  rw [List.head?_drop] at hhead
  rw [pbuf_try_get_at_eq]
  exact hhead

theorem add_ofNat_succ (off : BitVec 16) (n : Nat) :
    off + 1 + BitVec.ofNat 16 n = off + BitVec.ofNat 16 (n + 1) := by
  rw [BitVec.add_assoc, BitVec.ofNat_add, BitVec.add_comm (BitVec.ofNat 16 n)]
  rfl

/-- No offset behind some bytes of a chain overflows. -/
theorem drop_add {off : BitVec 16} {l bs : List Byte} (h : p.bytes.drop off.toNat = l ++ bs) :
    (off + BitVec.ofNat 16 l.length).toNat = off.toNat + l.length ∧
      p.bytes.drop (off + BitVec.ofNat 16 l.length).toNat = bs := by
  have hfits : p.bytes.length < 2 ^ 16 := p.fits
  have hlen := congrArg List.length h
  simp only [List.length_drop, List.length_append] at hlen
  have hadd : (off + BitVec.ofNat 16 l.length).toNat = off.toNat + l.length := by
    rw [BitVec.toNat_add, BitVec.toNat_ofNat]
    have := off.isLt
    rcases Nat.eq_zero_or_pos l.length with hzero | hpos
    · simpa [hzero] using this
    · omega
  refine ⟨hadd, ?_⟩
  rw [hadd, ← List.drop_drop, h, List.drop_left]

theorem drop_succ {off : BitVec 16} {b : Byte} {bs : List Byte}
    (h : p.bytes.drop off.toNat = b :: bs) :
    off ≠ 0xFFFF ∧ (off + 1).toNat = off.toNat + 1 ∧ p.bytes.drop (off + 1).toNat = bs := by
  obtain ⟨hadd, hdrop⟩ := drop_add (l := [b]) h
  refine ⟨?_, hadd, hdrop⟩
  rintro rfl
  simp at hadd

theorem pointer_iff (n : Byte) : n &&& 0xc0 = 0xc0 ↔ 192 ≤ n.toNat := by
  have hall : ∀ n : Byte, n &&& 0xc0 = 0xc0 ↔ 192 ≤ n.toNat := by decide
  exact hall n

/-! ## the rounds of `dns_skip_name` -/

/-- A label; the next byte says whether there is another one. -/
theorem skipRound_of_label {l bs : List Byte} {b : Byte} {off : BitVec 16} (hlen : l.length < 192)
    (h : p.bytes.drop off.toNat = BitVec.ofNat 8 l.length :: (l ++ b :: bs)) :
    skipRound p off =
      if b ≠ 0 then .next (off + BitVec.ofNat 16 (l.length + 1))
      else .ret (off + BitVec.ofNat 16 (l.length + 2)) := by
  obtain ⟨-, hadd, hdrop⟩ := drop_succ h
  have hn : (BitVec.ofNat 8 l.length).toNat = l.length := by
    simp
    omega
  have hwidth : (BitVec.ofNat 8 l.length).setWidth 16 = BitVec.ofNat 16 l.length := by
    rw [← BitVec.toNat_inj, BitVec.toNat_setWidth, hn, BitVec.toNat_ofNat]
  obtain ⟨-, hnext⟩ := drop_add hdrop
  obtain ⟨hne, -, -⟩ := drop_succ hnext
  have hlength := congrArg List.length h
  simp only [List.length_drop, List.length_cons, List.length_append] at hlength
  unfold skipRound
  rw [getElem?_of_drop h]
  dsimp only
  rw [if_neg, if_neg ((pointer_iff _).not.mpr (by omega)), if_neg, hwidth, getElem?_of_drop hnext]
  · dsimp only
    rw [if_neg hne, BitVec.ofNat_add l.length 2, add_ofNat_succ, BitVec.ofNat_add l.length 1,
      BitVec.add_assoc, BitVec.add_assoc]
    rfl
  · rw [Chain.toNat_tot_len, hadd, hn]
    omega
  · intro hzero
    rw [hzero] at hadd
    simp at hadd

theorem skipRound_of_pointer {bs : List Byte} {n : Byte} {off : BitVec 16} (hn : 192 ≤ n.toNat)
    (h : p.bytes.drop off.toNat = n :: bs) :
    skipRound p off = .ret (if off + 1 = 0xFFFF then 0xFFFF else off + 2) := by
  obtain ⟨-, hadd, hdrop⟩ := drop_succ h
  unfold skipRound
  rw [getElem?_of_drop h]
  dsimp only
  rw [if_neg, if_pos ((pointer_iff n).mpr hn)]
  · rw [BitVec.add_assoc]
    split <;> rfl
  · intro hzero
    rw [hzero] at hadd
    simp at hadd

theorem skipRound_cases (p : Chain) (off : BitVec 16) :
    (∃ l b bs, l.length < 192 ∧
        p.bytes.drop off.toNat = BitVec.ofNat 8 l.length :: (l ++ b :: bs)) ∨
      (∃ n bs, 192 ≤ n.toNat ∧ p.bytes.drop off.toNat = n :: bs) ∨
      skipRound p off = .ret 0xFFFF := by
  cases hbs : p.bytes.drop off.toNat with
  | nil =>
      unfold skipRound
      rw [getElem?_of_drop_nil hbs]
      exact Or.inr (Or.inr rfl)
  | cons n bs =>
      rcases Nat.lt_or_ge n.toNat 192 with hlt | hge
      · rcases Nat.lt_or_ge n.toNat bs.length with hin | hout
        · left
          refine ⟨bs.take n.toNat, bs[n.toNat], bs.drop (n.toNat + 1), ?_, ?_⟩
          · rw [List.length_take]
            omega
          · rw [← List.drop_eq_getElem_cons hin, List.take_append_drop, List.length_take,
              Nat.min_eq_left (by omega), BitVec.ofNat_toNat, BitVec.setWidth_eq]
        · obtain ⟨-, hadd, -⟩ := drop_succ hbs
          have hlength := congrArg List.length hbs
          simp only [List.length_drop, List.length_cons] at hlength
          have hbehind : p.tot_len.toNat ≤ (off + 1).toNat + n.toNat := by
            rw [Chain.toNat_tot_len, hadd]
            omega
          unfold skipRound
          rw [getElem?_of_drop hbs]
          dsimp only
          rw [if_neg ((pointer_iff n).not.mpr (by omega)), if_pos hbehind, ite_self]
          exact Or.inr (Or.inr rfl)
      · exact Or.inr (Or.inl ⟨n, bs, hge, rfl⟩)

theorem skipRound_decreases (off off' : BitVec 16) (h : skipRound p off = .next off') :
    p.bytes.length - off'.toNat < p.bytes.length - off.toNat := by
  rcases skipRound_cases p off with ⟨l, b, bs, hlen, hbs⟩ | ⟨n, bs, hn, hbs⟩ | hret
  · rw [skipRound_of_label hlen hbs] at h
    split at h
    · cases h
      have hadd := (drop_add (l := BitVec.ofNat 8 l.length :: l) hbs).1
      have hlength := congrArg List.length hbs
      simp only [List.length_drop, List.length_cons, List.length_append] at hadd hlength ⊢
      omega
    · cases h
  · rw [skipRound_of_pointer hn hbs] at h
    cases h
  · rw [hret] at h
    cases h

theorem dns_skip_name_ends (query_idx off : BitVec 16) : dns_skip_name p query_idx ≠ .next off :=
  Machine.run_ends (fun off => p.bytes.length - off.toNat) skipRound_decreases (by omega)

/-! ## what is skipped -/

/-- Labels, and the byte that ends them: a zero behind at least one label, or the first byte
of a pointer. -/
structure Skipped (p : Chain) (off : BitVec 16) (ls : List (List Byte)) (n : Byte)
    (bs : List Byte) : Prop where
  bytes : p.bytes.drop off.toNat = wire ls ++ n :: bs
  short : ∀ l ∈ ls, l.length < 192
  full : ∀ l ∈ ls.tail, l ≠ []
  ends : n = 0 ∧ ls ≠ [] ∨ 192 ≤ n.toNat

/-- What it takes to end a name. -/
def endLength (n : Byte) : Nat := if n = 0 then 1 else 2

theorem Skipped.returns {off r : BitVec 16} {ls : List (List Byte)} {n : Byte} {bs : List Byte}
    (h : Skipped p off ls n bs) (hr : r.toNat = off.toNat + (wire ls).length + endLength n) :
    Machine.Returns (skipRound p) off r := by
  induction ls generalizing off with
  | nil =>
      have hn : 192 ≤ n.toNat := h.ends.resolve_left (by simp)
      have hne : n ≠ 0 := by
        rintro rfl
        simp at hn
      rw [endLength, if_neg hne, wire_nil, List.length_nil, Nat.add_zero] at hr
      have hbytes := h.bytes
      rw [wire_nil, List.nil_append] at hbytes
      have hround := skipRound_of_pointer hn hbytes
      have hlast : off + 1 ≠ 0xFFFF := by
        intro heq
        have hadd := (drop_succ hbytes).2.1
        have := r.isLt
        rw [heq] at hadd
        simp at hadd
        omega
      rw [if_neg hlast] at hround
      refine Machine.Returns.of_step (hround.trans ?_)
      rw [Machine.Step.ret.injEq, ← BitVec.toNat_inj, BitVec.toNat_add, hr]
      have := r.isLt
      exact Nat.mod_eq_of_lt (by simp; omega)
  | cons l ls ih =>
      have hlen := h.short l (by simp)
      obtain ⟨b, bs', hb, hrest⟩ : ∃ b bs', wire ls ++ n :: bs = b :: bs' ∧
          (b = 0 → ls = [] ∧ n = 0) := by
        cases ls with
        | nil => exact ⟨n, bs, rfl, fun hn => ⟨rfl, hn⟩⟩
        | cons l' ls =>
            have hl' := List.length_pos_iff.mpr (h.full l' (by simp))
            have hshort := h.short l' (by simp)
            exact ⟨_, _, rfl, fun hzero => absurd hzero (ofNat_ne_zero hl' (by omega))⟩
      have hbytes := h.bytes
      rw [wire_cons, List.cons_append, List.append_assoc, hb] at hbytes
      have hround := skipRound_of_label hlen hbytes
      obtain ⟨hadd, hdrop⟩ := drop_add (l := BitVec.ofNat 8 l.length :: l) hbytes
      simp only [List.length_cons] at hadd hdrop
      simp only [wire_cons, List.length_cons, List.length_append] at hr
      by_cases hzero : b = 0
      · obtain ⟨rfl, rfl⟩ := hrest hzero
        rw [if_neg (not_not.mpr hzero)] at hround
        refine Machine.Returns.of_step (hround.trans ?_)
        rw [Machine.Step.ret.injEq, ← BitVec.toNat_inj, BitVec.toNat_add, hr, BitVec.toNat_ofNat]
        have := r.isLt
        simp [endLength] at hr ⊢
        omega
      · rw [if_pos hzero] at hround
        refine (Machine.Reaches.of_step hround).returns (ih ⟨hdrop.trans hb.symm, ?_, ?_, ?_⟩ ?_)
        · exact fun m hm => h.short m (by simp [hm])
        · exact fun m hm => h.full m (List.mem_of_mem_tail hm)
        · rcases h.ends with ⟨rfl, -⟩ | hn
          · refine Or.inl ⟨rfl, ?_⟩
            rintro rfl
            exact hzero (List.cons.inj hb).1.symm
          · exact Or.inr hn
        · rw [hr, hadd]
          omega

theorem skipped_of_run {k : Nat} {off r : BitVec 16}
    (h : Machine.run (skipRound p) k off = .ret r) (hr : r ≠ 0xFFFF) :
    ∃ ls n bs, Skipped p off ls n bs ∧
      r.toNat = off.toNat + (wire ls).length + endLength n := by
  induction k generalizing off with
  | zero => cases h
  | succ k ih =>
      rw [Machine.run] at h
      rcases skipRound_cases p off with ⟨l, b, bs, hlen, hbs⟩ | ⟨n, bs, hn, hbs⟩ | hret
      · rw [skipRound_of_label hlen hbs] at h
        obtain ⟨hadd, hdrop⟩ := drop_add (l := BitVec.ofNat 8 l.length :: l) hbs
        simp only [List.length_cons] at hadd hdrop
        by_cases hb : b = 0
        · rw [if_neg (not_not.mpr hb)] at h
          cases h
          obtain ⟨-, hnext, -⟩ := drop_succ hdrop
          refine ⟨[l], b, bs, ⟨by simpa using hbs, by simpa using hlen, by simp,
            Or.inl ⟨hb, by simp⟩⟩, ?_⟩
          rw [BitVec.add_assoc, show (1 : BitVec 16) = BitVec.ofNat 16 1 from rfl,
            ← BitVec.ofNat_add] at hnext
          rw [hnext, hadd, endLength, if_pos hb]
          simp
        · rw [if_pos hb] at h
          obtain ⟨ls, n, bs', hskipped, hlast⟩ := ih h
          refine ⟨l :: ls, n, bs', ⟨?_, ?_, ?_, ?_⟩, ?_⟩
          · rw [hbs, ← hdrop, hskipped.bytes]
            simp
          · simpa using ⟨hlen, hskipped.short⟩
          · intro m hm
            cases ls with
            | nil => simp at hm
            | cons l' ls =>
                rcases List.mem_cons.mp hm with rfl | hmem
                · rintro rfl
                  have hbytes := hskipped.bytes
                  rw [hdrop] at hbytes
                  exact hb (List.cons.inj hbytes).1
                · exact hskipped.full m hmem
          · exact hskipped.ends.imp_left fun hzero => ⟨hzero.1, by simp⟩
          · rw [hlast, hadd]
            simp
            omega
      · rw [skipRound_of_pointer hn hbs] at h
        cases h
        have hne : n ≠ 0 := by
          rintro rfl
          simp at hn
        split at hr
        · exact absurd rfl hr
        · rename_i hlast
          refine ⟨[], n, bs, ⟨by simpa using hbs, by simp, by simp, Or.inr hn⟩, ?_⟩
          have hadd := (drop_succ hbs).2.1
          rw [if_neg hlast, endLength, if_neg hne, BitVec.toNat_add]
          have := (off + 1).isLt
          have hmax : (off + 1).toNat ≠ 0xFFFF := fun heq => hlast (BitVec.toNat_inj.mp heq)
          simp
          omega
      · rw [hret] at h
        cases h
        exact absurd rfl hr

/-- A name is skipped if and only if it is labels that end with a zero or with a pointer. -/
theorem skip_iff (p : Chain) (query_idx r : BitVec 16) (hr : r ≠ 0xFFFF) :
    dns_skip_name p query_idx = .ret r ↔
      ∃ ls n bs, Skipped p query_idx ls n bs ∧
        r.toNat = query_idx.toNat + (wire ls).length + endLength n := by
  constructor
  · exact fun h => skipped_of_run h hr
  · rintro ⟨ls, n, bs, hskipped, hlast⟩
    exact (Machine.returns_iff_run (dns_skip_name_ends query_idx)).mp (hskipped.returns hlast)

/-- "a", and a pointer to the rest of the name. -/
theorem skip_iff_pointer :
    dns_skip_name ⟨[[1, 0x61], [0xc0, 0x0c]], by decide⟩ 0 = .ret 4 := by
  refine (skip_iff _ 0 4 (by decide)).mpr ⟨[[0x61]], 0xc0, [0x0c], ⟨rfl, by simp, by simp, ?_⟩, rfl⟩
  exact Or.inr (by decide)

end Enc28j60.Dns
