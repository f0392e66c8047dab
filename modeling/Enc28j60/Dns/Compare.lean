import Enc28j60.Dns.Name

/-!
# Enc28j60.Dns.Compare

`dns_compare_name` takes any labels that agree with the name at their places
(`compare_iff`).  The dots are not looked at, and the name may go on behind the last
label: the question that was asked is taken (`compare_own_iff`), and so is each question
about the first parts of the name (`compare_front`).  A label that agrees with the whole
buffer and goes on is read outside it (`compare_outside_iff`).
-/

namespace Enc28j60.Dns

open Labels Mqtt

variable {p : Chain} {query : Nat → Byte}

/-! ## labels that agree with a name -/

/-- The characters from `q` on are those of the label, and in the buffer. -/
def SameAt (query : Nat → Byte) : Nat → List Byte → Prop
  | _, [] => True
  | q, c :: l =>
      q < DNS_MAX_NAME_LENGTH ∧ lwip_tolower (query q) = lwip_tolower c ∧ SameAt query (q + 1) l

/-- The labels agree with the name, each at its place, and none looks like a pointer. -/
def Follows (query : Nat → Byte) : Nat → List (List Byte) → Prop
  | _, [] => True
  | q, l :: ls => l.length < 192 ∧ SameAt query q l ∧ Follows query (q + l.length + 1) ls

theorem compareLabel_ret {n : Nat} {off : BitVec 16} {q : Nat} {r : BitVec 16}
    (h : compareLabel query p n off q = .ret r) : r = 0xFFFF := by
  induction n generalizing off q with
  | zero => simp [compareLabel] at h
  | succ n ih =>
      rw [compareLabel] at h
      split at h
      · simpa using h.symm
      · split at h
        · simp at h
        split at h
        · simpa using h.symm
        split at h
        · simpa using h.symm
        · exact ih h

/-- The loop goes through a label that agrees. -/
theorem compareLabel_of_same {l bs : List Byte} {off : BitVec 16} {q : Nat}
    (h : p.bytes.drop off.toNat = l ++ bs) (hsame : SameAt query q l) :
    compareLabel query p l.length off q = .next (off + BitVec.ofNat 16 l.length, q + l.length) := by
  induction l generalizing off q with
  | nil => simp [compareLabel]
  | cons c l ih =>
      obtain ⟨hlt, heq, hrest⟩ := hsame
      obtain ⟨hne, -, hdrop⟩ := drop_succ h
      rw [List.length_cons, compareLabel, getElem?_of_drop h]
      dsimp only
      rw [if_neg (by omega), if_neg (not_not.mpr heq), if_neg hne, ih hdrop hrest, add_ofNat_succ,
        Nat.add_assoc, Nat.add_comm 1]

/-- What it has gone through is a label that agrees. -/
theorem compareLabel_next {n : Nat} {off off' : BitVec 16} {q q' : Nat}
    (h : compareLabel query p n off q = .next (off', q')) :
    ∃ l, l.length = n ∧ p.bytes.drop off.toNat = l ++ p.bytes.drop off'.toNat ∧
      off' = off + BitVec.ofNat 16 n ∧ q' = q + n ∧ SameAt query q l := by
  induction n generalizing off q with
  | zero =>
      simp only [compareLabel, Machine.Step.next.injEq, Prod.mk.injEq] at h
      obtain ⟨rfl, rfl⟩ := h
      exact ⟨[], by simp [SameAt]⟩
  | succ n ih =>
      rw [compareLabel] at h
      cases hbs : p.bytes.drop off.toNat with
      | nil =>
          rw [getElem?_of_drop_nil hbs] at h
          simp at h
      | cons c bs =>
          rw [getElem?_of_drop hbs] at h
          dsimp only at h
          split at h
          · simp at h
          split at h
          · simp at h
          split at h
          · simp at h
          rename_i hlt heq hne
          obtain ⟨l, rfl, hdrop, rfl, rfl, hsame⟩ := ih h
          rw [(drop_succ hbs).2.2] at hdrop
          refine ⟨c :: l, rfl, by rw [hdrop, List.cons_append], add_ofNat_succ off l.length, ?_, ?_⟩
          · omega
          · exact ⟨by omega, not_not.mp heq, hsame⟩

/-- It leaves the buffer in a label that goes on where the buffer ends. -/
theorem compareLabel_fault_iff {n : Nat} {off : BitVec 16} {q : Nat} :
    compareLabel query p n off q = .fault ↔
      ∃ l c bs, p.bytes.drop off.toNat = l ++ c :: bs ∧ l.length < n ∧ SameAt query q l ∧
        DNS_MAX_NAME_LENGTH ≤ q + l.length := by
  induction n generalizing off q with
  | zero => simp [compareLabel]
  | succ n ih =>
      rw [compareLabel]
      cases hbs : p.bytes.drop off.toNat with
      | nil =>
          rw [getElem?_of_drop_nil hbs]
          simp
      | cons b bs =>
          obtain ⟨hne, -, hdrop⟩ := drop_succ hbs
          rw [getElem?_of_drop hbs]
          dsimp only
          by_cases hout : DNS_MAX_NAME_LENGTH ≤ q
          · rw [if_pos hout]
            exact iff_of_true rfl ⟨[], b, bs, rfl, by simp, trivial, hout⟩
          rw [if_neg hout, if_neg hne]
          constructor
          · intro h
            split at h
            · simp at h
            · rename_i heq
              obtain ⟨l, c, bs', hbs', hlen, hsame, hend⟩ := ih.mp h
              rw [hdrop] at hbs'
              exact ⟨b :: l, c, bs', by simp [hbs'], by simpa using hlen,
                ⟨by omega, not_not.mp heq, hsame⟩, by simp; omega⟩
          · rintro ⟨l, c, bs', hbs', hlen, hsame, hend⟩
            cases l with
            | nil => simp at hend; omega
            | cons d l =>
                obtain ⟨rfl, rfl⟩ := List.cons.inj hbs'
                obtain ⟨-, heq, hrest⟩ := hsame
                rw [if_neg (not_not.mpr heq)]
                exact ih.mpr ⟨l, c, bs', hdrop, by simpa using hlen, hrest, by simp at hend; omega⟩

/-! ## the rounds of `dns_compare_name` -/

/-- A round on a label that agrees; the next byte says whether there is another one. -/
theorem compareRound_of_same {l bs : List Byte} {b : Byte} {off : BitVec 16} {q : Nat}
    (hlen : l.length < 192)
    (h : p.bytes.drop off.toNat = BitVec.ofNat 8 l.length :: (l ++ b :: bs))
    (hsame : SameAt query q l) :
    compareRound query p (off, q) =
      if b ≠ 0 then .next (off + BitVec.ofNat 16 (l.length + 1), q + l.length + 1)
      else .ret (off + BitVec.ofNat 16 (l.length + 2)) := by
  obtain ⟨hne, -, hdrop⟩ := drop_succ h
  have hn : (BitVec.ofNat 8 l.length).toNat = l.length := by
    simp
    omega
  obtain ⟨-, hnext⟩ := drop_add hdrop
  obtain ⟨hne', -, -⟩ := drop_succ hnext
  unfold compareRound compareNext
  rw [getElem?_of_drop h]
  dsimp only
  rw [if_neg hne, if_neg ((pointer_iff _).not.mpr (by omega)), hn,
    compareLabel_of_same hdrop hsame]
  dsimp only
  rw [getElem?_of_drop hnext]
  dsimp only
  rw [if_neg hne', add_ofNat_succ]
  rw [BitVec.ofNat_add l.length 2, BitVec.ofNat_add l.length 1, BitVec.add_assoc, BitVec.add_assoc]
  rfl

/-- Other rounds are the last one: the names differ, or the buffer is left. -/
theorem compareRound_cases (query : Nat → Byte) (p : Chain) (off : BitVec 16) (q : Nat) :
    (∃ l b bs, l.length < 192 ∧
        p.bytes.drop off.toNat = BitVec.ofNat 8 l.length :: (l ++ b :: bs) ∧ SameAt query q l) ∨
      compareRound query p (off, q) = .ret 0xFFFF ∨
      (compareRound query p (off, q) = .fault ∧
        ∃ n bs, p.bytes.drop off.toNat = n :: bs ∧ n.toNat < 192 ∧
          compareLabel query p n.toNat (off + 1) q = .fault) := by
  unfold compareRound
  cases hbs : p.bytes.drop off.toNat with
  | nil => simp [getElem?_of_drop_nil hbs]
  | cons n bs =>
      obtain ⟨hne, -, hdrop⟩ := drop_succ hbs
      rw [getElem?_of_drop hbs]
      dsimp only
      rw [if_neg hne]
      by_cases hpointer : n &&& 0xc0 = 0xc0
      · exact Or.inr (Or.inl (if_pos hpointer))
      have hlt : n.toNat < 192 := by
        have := (pointer_iff n).not.mp hpointer
        omega
      rw [if_neg hpointer]
      cases hlabel : compareLabel query p n.toNat (off + 1) q with
      | ret r => simp [compareLabel_ret hlabel]
      | fault => exact Or.inr (Or.inr ⟨rfl, n, bs, rfl, hlt, hlabel⟩)
      | next s =>
          obtain ⟨l, hl, hsplit, -, -, hsame⟩ := compareLabel_next hlabel
          rw [hdrop] at hsplit
          unfold compareNext
          cases hrest : p.bytes.drop s.1.toNat with
          | nil => simp [getElem?_of_drop_nil hrest]
          | cons b rest =>
              left
              rw [hrest] at hsplit
              refine ⟨l, b, rest, by omega, ?_, hsame⟩
              rw [hsplit, hl, BitVec.ofNat_toNat, BitVec.setWidth_eq]

theorem compareRound_decreases (s s' : BitVec 16 × Nat) (h : compareRound query p s = .next s') :
    p.bytes.length - s'.1.toNat < p.bytes.length - s.1.toNat := by
  obtain ⟨off, q⟩ := s
  rcases compareRound_cases query p off q with
    ⟨l, b, bs, hlen, hbs, hsame⟩ | hret | ⟨hfault, -⟩
  · rw [compareRound_of_same hlen hbs hsame] at h
    split at h
    · cases h
      have hadd := (drop_add (l := BitVec.ofNat 8 l.length :: l) hbs).1
      have hlength := congrArg List.length hbs
      simp only [List.length_drop, List.length_cons, List.length_append] at hadd hlength ⊢
      omega
    · cases h
  · rw [hret] at h
    cases h
  · rw [hfault] at h
    cases h

theorem dns_compare_name_ends (query : Nat → Byte) (p : Chain) (start_offset : BitVec 16)
    (s : BitVec 16 × Nat) :
    dns_compare_name query p start_offset ≠ .next s :=
  Machine.run_ends (fun s => p.bytes.length - s.1.toNat) compareRound_decreases
    (by dsimp only; omega)

/-! ## what is taken for the name -/

/-- Labels at an offset that agree with the name from `q` on; none is empty but the first. -/
structure Question (query : Nat → Byte) (p : Chain) (off : BitVec 16) (q : Nat)
    (ls : List (List Byte)) (bs : List Byte) : Prop where
  bytes : p.bytes.drop off.toNat = wire ls ++ 0 :: bs
  some_ : ls ≠ []
  full : ∀ l ∈ ls.tail, l ≠ []
  follows : Follows query q ls

/-- The first of some labels, and the byte behind it. -/
theorem wire_first (l : List Byte) (ls : List (List Byte)) (bs : List Byte) :
    ∃ b bs', wire ls ++ 0 :: bs = b :: bs' ∧
      wire (l :: ls) ++ 0 :: bs = BitVec.ofNat 8 l.length :: (l ++ b :: bs') := by
  cases ls with
  | nil => exact ⟨0, bs, rfl, by simp⟩
  | cons l' ls => exact ⟨BitVec.ofNat 8 l'.length, l' ++ wire ls ++ 0 :: bs, by simp, by simp⟩

theorem Question.returns {off : BitVec 16} {q : Nat} {ls : List (List Byte)} {bs : List Byte}
    (h : Question query p off q ls bs) :
    Machine.Returns (compareRound query p) (off, q)
      (off + BitVec.ofNat 16 ((wire ls).length + 1)) := by
  induction ls generalizing off q with
  | nil => exact absurd rfl h.some_
  | cons l ls ih =>
      obtain ⟨hlen, hsame, hrest⟩ := h.follows
      obtain ⟨b, bs', hb, hwire⟩ := wire_first l ls bs
      have hbytes := h.bytes.trans hwire
      have hround := compareRound_of_same hlen hbytes hsame
      cases ls with
      | nil =>
          obtain ⟨rfl, -⟩ := List.cons.inj hb
          rw [if_neg (not_not.mpr rfl)] at hround
          simpa using Machine.Returns.of_step hround
      | cons l' ls =>
          have hl' : l' ≠ [] := h.full l' (by simp)
          have hb' : b ≠ 0 := by
            rw [← (List.cons.inj hb).1]
            exact ofNat_ne_zero (List.length_pos_iff.mpr hl') (by have := hrest.1; omega)
          rw [if_pos hb'] at hround
          refine (Machine.Reaches.of_step hround).returns ?_
          have hdrop := (drop_add (l := BitVec.ofNat 8 l.length :: l) hbytes).2
          rw [List.length_cons] at hdrop
          have hnext := ih ⟨hdrop.trans hb.symm, by simp, fun m hm => h.full m (by simp_all),
            hrest⟩
          rw [BitVec.add_assoc, ← BitVec.ofNat_add] at hnext
          convert hnext using 3
          simp
          omega

theorem question_of_run {n : Nat} {off : BitVec 16} {q : Nat} {r : BitVec 16}
    (h : Machine.run (compareRound query p) n (off, q) = .ret r) (hr : r ≠ 0xFFFF) :
    ∃ ls bs, Question query p off q ls bs := by
  induction n generalizing off q with
  | zero => cases h
  | succ n ih =>
      rw [Machine.run] at h
      rcases compareRound_cases query p off q with
        ⟨l, b, bs, hlen, hbs, hsame⟩ | hret | ⟨hfault, -⟩
      · rw [compareRound_of_same hlen hbs hsame] at h
        have hdrop := (drop_add (l := BitVec.ofNat 8 l.length :: l) hbs).2
        rw [List.length_cons] at hdrop
        split at h
        · rename_i s hs
          split at hs
          · rename_i hb
            cases hs
            obtain ⟨ls, bs', hquestion⟩ := ih h
            obtain ⟨l', ls, rfl⟩ := List.exists_cons_of_ne_nil hquestion.some_
            refine ⟨l :: l' :: ls, bs', ?_, by simp, ?_, hlen, hsame, hquestion.follows⟩
            · rw [hbs, ← hdrop, hquestion.bytes]
              simp
            · intro m hm
              rcases List.mem_cons.mp hm with rfl | hmem
              · -- the byte in front of it said that there is another label
                rintro rfl
                have hbytes := hquestion.bytes
                rw [hdrop] at hbytes
                exact hb (List.cons.inj hbytes).1
              · exact hquestion.full m hmem
          · cases hs
        · rename_i hs
          cases h
          split at hs
          · cases hs
          · rename_i hb
            refine ⟨[l], bs, ?_, by simp, by simp, hlen, hsame, trivial⟩
            rw [hbs, not_not.mp hb]
            simp
        · cases h
      · rw [hret] at h
        cases h
        exact absurd rfl hr
      · rw [hfault] at h
        cases h

theorem Question.compare {start_offset : BitVec 16} {ls : List (List Byte)} {bs : List Byte}
    (h : Question query p start_offset 0 ls bs) :
    dns_compare_name query p start_offset =
      .ret (start_offset + BitVec.ofNat 16 ((wire ls).length + 1)) :=
  (Machine.returns_iff_run (dns_compare_name_ends query p start_offset)).mp h.returns

theorem question_of_compare {start_offset r : BitVec 16}
    (h : dns_compare_name query p start_offset = .ret r) (hr : r ≠ 0xFFFF) :
    ∃ ls bs, Question query p start_offset 0 ls bs ∧
      r = start_offset + BitVec.ofNat 16 ((wire ls).length + 1) := by
  obtain ⟨ls, bs, hquestion⟩ := question_of_run h hr
  have hreturns := (Machine.returns_iff_run (dns_compare_name_ends query p start_offset)).mpr h
  exact ⟨ls, bs, hquestion, hreturns.unique hquestion.returns⟩

/-- The names are equal for `dns_compare_name` if and only if the labels in the chain agree
with the name at their places; the offset is the one behind them. -/
theorem compare_iff (query : Nat → Byte) (p : Chain) (start_offset r : BitVec 16)
    (hr : r ≠ 0xFFFF) :
    dns_compare_name query p start_offset = .ret r ↔
      ∃ ls bs, Question query p start_offset 0 ls bs ∧
        r = start_offset + BitVec.ofNat 16 ((wire ls).length + 1) := by
  constructor
  · intro h
    exact question_of_compare h hr
  · rintro ⟨ls, bs, hquestion, rfl⟩
    exact hquestion.compare

/-- The labels of "a.b" agree with "aXb" as well. -/
theorem compare_iff_other :
    dns_compare_name (Mem.store (fun _ => 0) 0 [0x61, 0x58, 0x62])
      ⟨[List.replicate 12 0 ++ [1, 0x61, 1, 0x62, 0]], by decide⟩ SIZEOF_DNS_HDR = .ret 17 := by
  refine (compare_iff _ _ _ 17 (by decide)).mpr ⟨[[0x61], [0x62]], [], ⟨?_, by simp, ?_, ?_⟩, rfl⟩
  · decide
  · simp
  · exact ⟨by simp, ⟨by decide, rfl, trivial⟩, by simp, ⟨by decide, rfl, trivial⟩, trivial⟩

/-! ## outside the buffer -/

/-- Labels that agree with the name, and one that agrees with it as far as the buffer goes, but
is longer. -/
structure Overrun (query : Nat → Byte) (p : Chain) (off : BitVec 16) (q : Nat)
    (ls : List (List Byte)) (n : Byte) (l bs : List Byte) : Prop where
  bytes : p.bytes.drop off.toNat = wire ls ++ n :: (l ++ bs)
  full : ∀ m ∈ ls.tail, m ≠ []
  follows : Follows query q ls
  label : n.toNat < 192 ∧ l.length < n.toNat ∧ bs ≠ []
  same : SameAt query (q + (wire ls).length) l
  ends : DNS_MAX_NAME_LENGTH ≤ q + (wire ls).length + l.length

theorem Overrun.undefined {off : BitVec 16} {q : Nat} {ls : List (List Byte)} {n : Byte}
    {l bs : List Byte} (h : Overrun query p off q ls n l bs) :
    Machine.Undefined (compareRound query p) (off, q) := by
  obtain ⟨hn, hlt, hbs⟩ := h.label
  obtain ⟨c, bs, rfl⟩ := List.exists_cons_of_ne_nil hbs
  induction ls generalizing off q with
  | nil =>
      have hbytes := h.bytes
      rw [wire_nil, List.nil_append] at hbytes
      obtain ⟨hne, -, hdrop⟩ := drop_succ hbytes
      have hfault : compareLabel query p n.toNat (off + 1) q = .fault :=
        compareLabel_fault_iff.mpr ⟨l, c, bs, hdrop, hlt, h.same, h.ends⟩
      refine (Machine.Reaches.refl _).undefined ?_
      unfold compareRound
      rw [getElem?_of_drop hbytes]
      dsimp only
      rw [if_neg hne, if_neg ((pointer_iff n).not.mpr (by omega)), hfault]
  | cons m ls ih =>
      obtain ⟨hlen, hsame, hrest⟩ := h.follows
      obtain ⟨b, bs', hb, hb'⟩ : ∃ b bs', wire ls ++ n :: (l ++ c :: bs) = b :: bs' ∧ b ≠ 0 := by
        cases ls with
        | nil => exact ⟨n, _, rfl, by rintro rfl; simp at hlt⟩
        | cons m' ls =>
            have hm' : m' ≠ [] := h.full m' (by simp)
            have hshort := hrest.1
            exact ⟨_, _, rfl, ofNat_ne_zero (List.length_pos_iff.mpr hm') (by omega)⟩
      have hbytes := h.bytes
      rw [wire_cons, List.cons_append, List.append_assoc, hb] at hbytes
      have hround := compareRound_of_same hlen hbytes hsame
      rw [if_pos hb'] at hround
      have hdrop := (drop_add (l := BitVec.ofNat 8 m.length :: m) hbytes).2
      rw [List.length_cons] at hdrop
      have hplace : q + m.length + 1 + (wire ls).length = q + (wire (m :: ls)).length := by
        simp
        omega
      exact (Machine.Reaches.of_step hround).undefined_of
        (ih ⟨hdrop.trans hb.symm, fun m hm => h.full m (List.mem_of_mem_tail hm), hrest, h.label,
          by rw [hplace]; exact h.same, by rw [hplace]; exact h.ends⟩)

theorem overrun_of_run {k : Nat} {off : BitVec 16} {q : Nat}
    (h : Machine.run (compareRound query p) k (off, q) = .fault) :
    ∃ ls n l bs, Overrun query p off q ls n l bs := by
  induction k generalizing off q with
  | zero => cases h
  | succ k ih =>
      rw [Machine.run] at h
      rcases compareRound_cases query p off q with
        ⟨m, b, bs, hlen, hbs, hsame⟩ | hret | ⟨-, n, bs, hbs, hlt, hfault⟩
      · rw [compareRound_of_same hlen hbs hsame] at h
        have hdrop := (drop_add (l := BitVec.ofNat 8 m.length :: m) hbs).2
        rw [List.length_cons] at hdrop
        split at h
        · rename_i s hs
          split at hs
          · rename_i hb
            cases hs
            obtain ⟨ls, n, l, bs', hover⟩ := ih h
            have hplace : q + m.length + 1 + (wire ls).length = q + (wire (m :: ls)).length := by
              simp
              omega
            refine ⟨m :: ls, n, l, bs', ?_, ?_, ⟨hlen, hsame, hover.follows⟩, hover.label, ?_, ?_⟩
            · rw [hbs, ← hdrop, hover.bytes]
              simp
            · intro m' hm'
              cases ls with
              | nil => simp at hm'
              | cons l₁ ls =>
                  rcases List.mem_cons.mp hm' with rfl | hmem
                  · rintro rfl
                    have hbytes := hover.bytes
                    rw [hdrop] at hbytes
                    exact hb (List.cons.inj hbytes).1
                  · exact hover.full m' hmem
            · rw [← hplace]
              exact hover.same
            · rw [← hplace]
              exact hover.ends
          · cases hs
        · cases h
        · rename_i hs
          split at hs <;> cases hs
      · rw [hret] at h
        cases h
      · obtain ⟨-, -, hdrop⟩ := drop_succ hbs
        obtain ⟨l, c, rest, hsplit, hlen, hsame, hend⟩ := compareLabel_fault_iff.mp hfault
        rw [hdrop] at hsplit
        exact ⟨[], n, l, c :: rest, by rw [hbs, hsplit]; simp, by simp, trivial,
          ⟨hlt, hlen, by simp⟩, hsame, hend⟩

/-- The buffer is left if and only if a label goes on behind it that agrees with all of it. -/
theorem compare_outside_iff (query : Nat → Byte) (p : Chain) (start_offset : BitVec 16) :
    dns_compare_name query p start_offset = .fault ↔
      ∃ ls n l bs, Overrun query p start_offset 0 ls n l bs := by
  have hends := Machine.undefined_iff_run
    (dns_compare_name_ends query p start_offset)
  constructor
  · exact overrun_of_run
  · rintro ⟨ls, n, l, bs, h⟩
    exact hends.mp h.undefined

/-! ## the name that was asked for -/

/-- The parts of a string in the buffer are in it. -/
theorem load_append {q : Nat} {l l' : List Byte}
    (h : Mem.load query q (l ++ l').length = l ++ l') :
    Mem.load query q l.length = l ∧ Mem.load query (q + l.length) l'.length = l' := by
  rw [List.length_append, Mem.load_add] at h
  exact List.append_inj h (Mem.length_load ..)

theorem sameAt_of_load {q : Nat} {l : List Byte} (h : Mem.load query q l.length = l)
    (hq : q + l.length ≤ DNS_MAX_NAME_LENGTH) : SameAt query q l := by
  induction l generalizing q with
  | nil => trivial
  | cons c l ih =>
      obtain ⟨hc, hl⟩ := load_append (l := [c]) h
      rw [List.length_cons] at hq
      refine ⟨by omega, ?_, ih hl (by omega)⟩
      rw [← (List.cons.inj hc).1]
      rfl

/-- The parts between the dots of a name follow it. -/
theorem follows_of_load {q : Nat} {ls : List (List Byte)}
    (h : Mem.load query q ([dot].intercalate ls).length = [dot].intercalate ls)
    (hq : q + ([dot].intercalate ls).length ≤ DNS_MAX_NAME_LENGTH)
    (hlen : ∀ l ∈ ls, l.length < 192) : Follows query q ls := by
  induction ls generalizing q with
  | nil => trivial
  | cons l ls ih =>
      have hl := hlen l (by simp)
      cases ls with
      | nil =>
          rw [List.intercalate_singleton] at h hq
          exact ⟨hl, sameAt_of_load h hq, trivial⟩
      | cons l' ls =>
          rw [List.intercalate_cons_cons] at h hq
          obtain ⟨hfront, hrest⟩ := load_append h
          simp only [List.length_append, List.length_cons, List.length_nil] at hrest hq
          exact ⟨hl, sameAt_of_load (load_append hfront).1 (by omega),
            ih hrest (by omega) fun m hm => hlen m (by simp [hm])⟩

theorem Follows.front {q : Nat} {ls ls' : List (List Byte)} (h : Follows query q (ls ++ ls')) :
    Follows query q ls := by
  induction ls generalizing q with
  | nil => trivial
  | cons l ls ih =>
      obtain ⟨hlen, hsame, hrest⟩ := h
      exact ⟨hlen, hsame, ih hrest⟩

theorem Follows.short {q : Nat} {ls : List (List Byte)} (h : Follows query q ls) :
    ∀ l ∈ ls, l.length < 192 := by
  induction ls generalizing q with
  | nil => simp
  | cons l ls ih =>
      obtain ⟨hlen, -, hrest⟩ := h
      simpa using ⟨hlen, ih hrest⟩

theorem toNat_behind_hdr {n : Nat} (h : n < 2 ^ 16 - 12) :
    (SIZEOF_DNS_HDR + BitVec.ofNat 16 n).toNat = 12 + n := by
  rw [BitVec.toNat_add, BitVec.toNat_ofNat, show SIZEOF_DNS_HDR.toNat = 12 from rfl]
  omega

theorem behind_hdr_ne {n : Nat} (h : n < 2 ^ 16 - 13) :
    SIZEOF_DNS_HDR + BitVec.ofNat 16 n ≠ 0xFFFF := by
  intro heq
  have := (toNat_behind_hdr (by omega)).symm.trans (congrArg BitVec.toNat heq)
  rw [show (0xFFFF : BitVec 16).toNat = 2 ^ 16 - 1 from rfl] at this
  omega

theorem follows_parts {hostname : List Byte}
    (hname : Mem.load query 0 hostname.length = hostname)
    (hlen : hostname.length < DNS_MAX_NAME_LENGTH) (hshort : ∀ l ∈ parts hostname, l.length < 192) :
    Follows query 0 (parts hostname) := by
  have hjoin : [dot].intercalate (parts hostname) = hostname := List.intercalate_splitOn dot
  exact follows_of_load (by rwa [hjoin]) (by rw [hjoin]; omega) hshort

theorem question_of_parts {hostname : List Byte} {ls ls' : List (List Byte)} {bs : List Byte}
    (hname : Mem.load query 0 hostname.length = hostname)
    (hlen : hostname.length < DNS_MAX_NAME_LENGTH) (hparts : parts hostname = ls ++ ls')
    (hsome : ls ≠ []) (hshort : ∀ l ∈ parts hostname, l.length < 192)
    (hfull : ∀ l ∈ (parts hostname).tail, l ≠ [])
    (hbytes : p.bytes.drop SIZEOF_DNS_HDR.toNat = wire ls ++ 0 :: bs) :
    Question query p SIZEOF_DNS_HDR 0 ls bs := by
  have hfollows := follows_parts hname hlen hshort
  rw [hparts] at hfollows hfull
  refine ⟨hbytes, hsome, fun l hl => hfull l ?_, hfollows.front⟩
  rw [List.tail_append_of_ne_nil hsome]
  exact List.mem_append_left _ hl

/-- A question about the first parts of the name is taken for the one that was asked. -/
theorem compare_front {hostname : List Byte} {ls ls' : List (List Byte)} {bs : List Byte}
    (hname : Mem.load query 0 hostname.length = hostname)
    (hlen : hostname.length < DNS_MAX_NAME_LENGTH) (hparts : parts hostname = ls ++ ls')
    (hsome : ls ≠ []) (hshort : ∀ l ∈ parts hostname, l.length < 192)
    (hfull : ∀ l ∈ (parts hostname).tail, l ≠ [])
    (hbytes : p.bytes.drop SIZEOF_DNS_HDR.toNat = wire ls ++ 0 :: bs) :
    dns_compare_name query p SIZEOF_DNS_HDR =
      .ret (SIZEOF_DNS_HDR + BitVec.ofNat 16 ((wire ls).length + 1)) := by
  have hquestion := question_of_parts hname hlen hparts hsome hshort hfull hbytes
  exact hquestion.compare

/-- "a.b" was asked, and "a" is in the question. -/
theorem compare_front_first :
    dns_compare_name (Mem.store (fun _ => 0) 0 [0x61, dot, 0x62])
      ⟨[List.replicate 12 0 ++ [1, 0x61, 0]], by decide⟩ SIZEOF_DNS_HDR = .ret 15 := by
  have hparts : parts [0x61, dot, 0x62] = [[0x61]] ++ [[0x62]] := by decide
  exact compare_front (Mem.load_store ..) (by decide) hparts (by simp) (by decide) (by decide) rfl

/-- The question that was asked is taken to its end if and only if no part of the name is too
long, and none is empty but the first. -/
theorem compare_own_iff (query : Nat → Byte) (p : Chain) {hostname bs : List Byte}
    (hname : Mem.load query 0 hostname.length = hostname)
    (hlen : hostname.length < DNS_MAX_NAME_LENGTH)
    (hbytes : p.bytes.drop SIZEOF_DNS_HDR.toNat = encodeName hostname ++ bs) :
    dns_compare_name query p SIZEOF_DNS_HDR =
        .ret (SIZEOF_DNS_HDR + BitVec.ofNat 16 (encodeName hostname).length) ↔
      (∀ l ∈ parts hostname, l.length < 192) ∧ ∀ l ∈ (parts hostname).tail, l ≠ [] := by
  have hwire : (wire (parts hostname)).length = hostname.length + 1 := length_wire_splitOn ..
  rw [encodeName, List.append_assoc] at hbytes
  constructor
  · intro h
    unfold DNS_MAX_NAME_LENGTH at hlen
    rw [length_encodeName] at h
    obtain ⟨ls, bs', hquestion, hend⟩ :=
      question_of_compare h (behind_hdr_ne (by omega))
    have hlength := congrArg List.length hquestion.bytes
    have hfits : p.bytes.length < 2 ^ 16 := p.fits
    simp only [List.length_drop, List.length_append, List.length_cons] at hlength
    have hsame : (wire ls).length = (wire (parts hostname)).length := by
      have hhdr : SIZEOF_DNS_HDR.toNat = 12 := rfl
      have := congrArg BitVec.toNat hend
      rw [toNat_behind_hdr (by omega), toNat_behind_hdr (by omega)] at this
      omega
    have hshort := hquestion.follows.short
    have heq : ls = parts hostname := by
      refine wire_injective (fun l hl => by have := hshort l hl; omega) (fun l hl => ?_)
        (List.append_inj (hquestion.bytes.symm.trans hbytes) hsame).1
      have := length_le_wire hl
      omega
    rw [← heq]
    exact ⟨hshort, hquestion.full⟩
  · rintro ⟨hshort, hfull⟩
    have hquestion := question_of_parts hname hlen (List.append_nil _).symm
      (parts_ne_nil hostname) hshort hfull hbytes
    rw [length_encodeName, ← Nat.add_assoc _ 1 1, ← hwire]
    exact hquestion.compare

/-- "a.b" was asked, and is in the question. -/
theorem compare_own_two :
    dns_compare_name (Mem.store (fun _ => 0) 0 [0x61, dot, 0x62])
      ⟨[List.replicate 12 0 ++ [1, 0x61, 1, 0x62, 0]], by decide⟩ SIZEOF_DNS_HDR = .ret 17 := by
  have hencode : encodeName [0x61, dot, 0x62] = [1, 0x61, 1, 0x62, 0] := by decide
  have h := (compare_own_iff (Mem.store (fun _ => 0) 0 [0x61, dot, 0x62])
    ⟨[List.replicate 12 0 ++ [1, 0x61, 1, 0x62, 0]], by decide⟩ (Mem.load_store ..) (by decide)
    (by rw [hencode]; exact (List.append_nil _).symm)).mpr (by decide)
  rwa [hencode] at h

end Enc28j60.Dns
