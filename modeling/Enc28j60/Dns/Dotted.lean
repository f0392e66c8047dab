import Enc28j60.Chip
import Mathlib.Data.BitVec

/-!
# Enc28j60.Dns.Dotted

Addresses as strings: `ip4addr_aton`, which `dns_gethostbyname` tries first, and
`ip4addr_ntoa_r`.

A string is taken for an address if and only if it is one to four numbers with dots
between them, in any of the three bases and modulo `2 ^ 32`, of which each but the last
fits a byte and the last fits what is left (`aton_iff`).  What `ip4addr_ntoa_r` writes is
read back (`aton_ntoa`).
-/

namespace Enc28j60.Dns

/-! ## characters -/

def lwip_isdigit (c : Byte) : Bool := 0x30 ≤ c && c ≤ 0x39

def lwip_islower (c : Byte) : Bool := 0x61 ≤ c && c ≤ 0x7a

def lwip_isxdigit (c : Byte) : Bool :=
  lwip_isdigit c || (0x61 ≤ c && c ≤ 0x66) || (0x41 ≤ c && c ≤ 0x46)

def lwip_isspace (c : Byte) : Bool :=
  c = 0x20 || c = 0x0c || c = 0x0a || c = 0x0d || c = 0x09 || c = 0x0b

/-- `'.'`. -/
def dot : Byte := 0x2e

/-- `c + 10 - (lwip_islower(c) ? 'a' : 'A')`. -/
def hexDigit (c : Byte) : Byte := c + 10 - if lwip_islower c then 0x61 else 0x41

/-! ## from a string -/

/-- The loop over the digits of a number: its value, and the string from where it ends.
Strings are without the zero behind them. -/
def atonDigits (base : BitVec 32) : BitVec 32 → List Byte → BitVec 32 × List Byte
  | val, [] => (val, [])
  | val, c :: cp =>
      if lwip_isdigit c then
        if base = 8 ∧ 8 ≤ c - 0x30 then (val, c :: cp)
        else atonDigits base (val * base + (c - 0x30).setWidth 32) cp
      else if base = 16 ∧ lwip_isxdigit c then
        atonDigits base (val <<< 4 ||| (hexDigit c).setWidth 32) cp
      else
        (val, c :: cp)

/-- One number. -/
def atonNumber : List Byte → Option (BitVec 32 × List Byte)
  | [] => none
  | c :: cp =>
      if ¬lwip_isdigit c then none
      else if c = 0x30 then
        if cp.head? = some 0x78 ∨ cp.head? = some 0x58 then some (atonDigits 16 0 cp.tail)
        else some (atonDigits 8 0 cp)
      else
        some (atonDigits 10 0 (c :: cp))

/-- The numbers up to one without a dot behind it, of which `n` can be stored. -/
def atonParts : Nat → List Byte → Option (List (BitVec 32) × List Byte)
  | n, cp =>
      match atonNumber cp with
      | none => none
      | some (val, []) => some ([val], [])
      | some (val, c :: cp') =>
          if c = dot then
            match n with
            | 0 => none
            | n + 1 => (atonParts n cp').map fun res => (val :: res.1, res.2)
          else
            some ([val], c :: cp')

/-- The address, in host order, of the numbers. -/
def atonAddress (parts : List (BitVec 32)) : Option (BitVec 32) :=
  match parts with
  | [val] => some val
  | [a, val] => if 0xffffff < val ∨ 0xff < a then none else some (val ||| a <<< 24)
  | [a, b, val] =>
      if 0xffff < val ∨ 0xff < a ∨ 0xff < b then none else some (val ||| (a <<< 24 ||| b <<< 16))
  | [a, b, c, val] =>
      if 0xff < val ∨ 0xff < a ∨ 0xff < b ∨ 0xff < c then none
      else some (val ||| (a <<< 24 ||| b <<< 16 ||| c <<< 8))
  | _ => none

/-- `lwip_htonl`, on a little endian processor. -/
def lwip_htonl (x : BitVec 32) : BitVec 32 :=
  x.extractLsb' 0 8 ++ x.extractLsb' 8 8 ++ x.extractLsb' 16 8 ++ x.extractLsb' 24 8

/-- Convert an ascii representation of an Internet address to a binary one, in network order. -/
def ip4addr_aton (cp : List Byte) : Option (BitVec 32) :=
  match atonParts 3 cp with
  | none => none
  | some (parts, rest) =>
      if ∀ c ∈ rest.head?, lwip_isspace c then (atonAddress parts).map lwip_htonl else none

/-! ## to a string -/

/-- The decimal digits of `*ap`; a byte has three at most. -/
def decimal : Nat → Byte → List Byte
  | 0, _ => []
  | k + 1, n => (if n / 10 = 0 then [] else decimal k (n / 10)) ++ [0x30 + n % 10]

/-- `*rp++ = c`, within `buflen`. -/
def putChar (buflen : Nat) (buf : Option (List Byte)) (c : Byte) : Option (List Byte) :=
  buf.bind fun buf => if buflen ≤ buf.length then none else some (buf ++ [c])

/-- The bytes of an address in memory. -/
def octets (addr : BitVec 32) : List Byte :=
  [addr.extractLsb' 0 8, addr.extractLsb' 8 8, addr.extractLsb' 16 8, addr.extractLsb' 24 8]

/-- Convert a numeric IP address into decimal dotted ASCII representation; the last dot is
overwritten with the zero that ends the string. -/
def ip4addr_ntoa_r (addr : BitVec 32) (buflen : Nat) : Option (List Byte) :=
  (((octets addr).flatMap fun n => decimal 3 n ++ [dot]).foldl (putChar buflen) (some [])).map
    List.dropLast

/-! ## numbers -/

/-- The value of a digit in a base. -/
def digit? (base : BitVec 32) (c : Byte) : Option (BitVec 32) :=
  if lwip_isdigit c then
    if base = 8 ∧ 8 ≤ c - 0x30 then none else some ((c - 0x30).setWidth 32)
  else if base = 16 ∧ lwip_isxdigit c then
    some ((hexDigit c).setWidth 32)
  else
    none

/-- The value of some digits behind others, modulo `2 ^ 32`. -/
def value (base : BitVec 32) : BitVec 32 → List Byte → BitVec 32
  | val, [] => val
  | val, c :: ds => value base (val * base + (digit? base c).getD 0) ds

/-- A number as it can be written: in base ten, eight or sixteen. -/
inductive Numeral : List Byte → BitVec 32 → Prop
  | decimal {c : Byte} {ds : List Byte} (hc : c ≠ 0x30)
      (hds : ∀ d ∈ c :: ds, (digit? 10 d).isSome) : Numeral (c :: ds) (value 10 0 (c :: ds))
  | octal {ds : List Byte} (hds : ∀ d ∈ ds, (digit? 8 d).isSome) :
      Numeral (0x30 :: ds) (value 8 0 ds)
  | hexadecimal {x : Byte} {ds : List Byte} (hx : x = 0x78 ∨ x = 0x58)
      (hds : ∀ d ∈ ds, (digit? 16 d).isSome) : Numeral (0x30 :: x :: ds) (value 16 0 ds)

theorem shiftLeft_or (val : BitVec 32) {d : BitVec 32} (hd : d.toNat < 16) :
    val <<< 4 ||| d = val * 16 + d := by
  rw [← BitVec.toNat_inj]
  simp only [BitVec.toNat_or, BitVec.toNat_shiftLeft, BitVec.toNat_add, BitVec.toNat_mul]
  have hval := val.isLt
  have hshift : val.toNat <<< 4 % 2 ^ 32 = (val.toNat % 2 ^ 28) <<< 4 := by
    rw [Nat.shiftLeft_eq, Nat.shiftLeft_eq]
    omega
  rw [hshift, ← Nat.shiftLeft_add_eq_or_of_lt hd, Nat.shiftLeft_eq]
  simp
  omega

theorem toNat_hexDigit {c : Byte} (h : lwip_isxdigit c) (hdigit : ¬lwip_isdigit c) :
    (hexDigit c).toNat < 16 := by
  have hall : ∀ c : Byte, lwip_isxdigit c → ¬lwip_isdigit c → (hexDigit c).toNat < 16 := by decide
  exact hall c h hdigit

theorem atonDigits_cons (base val : BitVec 32) (c : Byte) (cp : List Byte) :
    atonDigits base val (c :: cp) =
      match digit? base c with
      | some d => atonDigits base (val * base + d) cp
      | none => (val, c :: cp) := by
  rw [atonDigits, digit?]
  by_cases hdigit : lwip_isdigit c
  · rw [if_pos hdigit, if_pos hdigit]
    split <;> rfl
  rw [if_neg hdigit, if_neg hdigit]
  by_cases hhex : base = 16 ∧ lwip_isxdigit c
  · have hlt := toNat_hexDigit hhex.2 hdigit
    rw [if_pos hhex, if_pos hhex, shiftLeft_or, hhex.1]
    rw [BitVec.toNat_setWidth]
    omega
  · rw [if_neg hhex, if_neg hhex]

theorem atonDigits_of_digits {base val : BitVec 32} {ds rest : List Byte}
    (hds : ∀ d ∈ ds, (digit? base d).isSome) (hrest : ∀ c ∈ rest.head?, digit? base c = none) :
    atonDigits base val (ds ++ rest) = (value base val ds, rest) := by
  induction ds generalizing val with
  | nil =>
      cases rest with
      | nil => rfl
      | cons c rest => simp [atonDigits_cons, hrest c rfl, value]
  | cons d ds ih =>
      obtain ⟨n, hn⟩ := Option.isSome_iff_exists.mp (hds d (by simp))
      simp [atonDigits_cons, hn, value, ih fun e he => hds e (by simp [he])]

theorem digits_of_atonDigits (base val : BitVec 32) (cp : List Byte) :
    ∃ ds rest, cp = ds ++ rest ∧ (∀ d ∈ ds, (digit? base d).isSome) ∧
      atonDigits base val cp = (value base val ds, rest) := by
  induction cp generalizing val with
  | nil => exact ⟨[], [], rfl, by simp, rfl⟩
  | cons c cp ih =>
      rw [atonDigits_cons]
      cases hc : digit? base c with
      | none => exact ⟨[], c :: cp, rfl, by simp, rfl⟩
      | some d =>
          obtain ⟨ds, rest, rfl, hds, heq⟩ := ih (val * base + d)
          refine ⟨c :: ds, rest, rfl, by simpa [hc] using hds, ?_⟩
          simp [heq, value, hc]

/-- What may be behind a number. -/
def Ends (rest : List Byte) : Prop := ∀ c ∈ rest.head?, c = dot ∨ lwip_isspace c

theorem not_digit {base : BitVec 32} {rest : List Byte} (h : Ends rest) :
    ∀ c ∈ rest.head?, digit? base c = none := by
  intro c hc
  have hall : ∀ c : Byte, c = dot ∨ lwip_isspace c → ¬lwip_isdigit c ∧ ¬lwip_isxdigit c := by decide
  obtain ⟨hdigit, hhex⟩ := hall c (h c hc)
  rw [digit?, if_neg hdigit, if_neg fun h => hhex h.2]

theorem Numeral.read {s rest : List Byte} {val : BitVec 32} (h : Numeral s val) (hrest : Ends rest) :
    atonNumber (s ++ rest) = some (val, rest) := by
  cases h with
  | @decimal c ds hc hds =>
      have hall : ∀ c : Byte, (digit? 10 c).isSome → lwip_isdigit c := by decide
      rw [List.cons_append, atonNumber, if_neg (not_not.mpr (hall c (hds c (by simp)))), if_neg hc,
        ← List.cons_append, atonDigits_of_digits hds (not_digit hrest)]
  | @octal ds hds =>
      have hall : ∀ c : Byte, (digit? 8 c).isSome ∨ c = dot ∨ lwip_isspace c →
          ¬(some c = some (0x78 : Byte) ∨ some c = some (0x58 : Byte)) := by decide
      have hfirst : ¬((ds ++ rest).head? = some 0x78 ∨ (ds ++ rest).head? = some 0x58) := by
        cases hcp : ds ++ rest with
        | nil => simp
        | cons c cp =>
            refine hall c ?_
            cases ds with
            | nil => exact Or.inr (hrest c (by rw [List.nil_append] at hcp; simp [hcp]))
            | cons d ds =>
                obtain ⟨rfl, -⟩ := List.cons.inj hcp
                exact Or.inl (hds d (by simp))
      rw [List.cons_append, atonNumber, if_neg (by decide), if_pos rfl, if_neg hfirst,
        atonDigits_of_digits hds (not_digit hrest)]
  | @hexadecimal x ds hx hds =>
      rw [List.cons_append, List.cons_append, atonNumber, if_neg (by decide), if_pos rfl,
        if_pos (by simpa using hx), List.tail_cons, atonDigits_of_digits hds (not_digit hrest)]

theorem numeral_of_atonNumber {cp rest : List Byte} {val : BitVec 32}
    (h : atonNumber cp = some (val, rest)) : ∃ s, Numeral s val ∧ cp = s ++ rest := by
  cases cp with
  | nil => cases h
  | cons c cp =>
      rw [atonNumber] at h
      by_cases hdigit : lwip_isdigit c
      swap
      · rw [if_pos hdigit] at h
        cases h
      rw [if_neg (not_not.mpr hdigit)] at h
      by_cases hzero : c = 0x30
      · subst hzero
        rw [if_pos rfl] at h
        split at h
        · rename_i hx
          cases cp with
          | nil => simp at hx
          | cons x cp =>
              obtain ⟨ds, rest', rfl, hds, heq⟩ := digits_of_atonDigits 16 0 cp
              rw [List.tail_cons, heq] at h
              cases h
              exact ⟨_, .hexadecimal (by simpa using hx) hds, rfl⟩
        · obtain ⟨ds, rest', rfl, hds, heq⟩ := digits_of_atonDigits 8 0 cp
          rw [heq] at h
          cases h
          exact ⟨_, .octal hds, rfl⟩
      · rw [if_neg hzero, atonDigits_cons] at h
        have hall : ∀ c : Byte, lwip_isdigit c → (digit? 10 c).isSome := by decide
        obtain ⟨d, hd⟩ := Option.isSome_iff_exists.mp (hall c hdigit)
        obtain ⟨ds, rest', rfl, hds, heq⟩ := digits_of_atonDigits 10 (0 * 10 + d) cp
        rw [hd] at h
        dsimp only at h
        rw [heq] at h
        cases h
        refine ⟨c :: ds, ?_, rfl⟩
        have hall_ds : ∀ e ∈ c :: ds, (digit? 10 e).isSome := fun e he => by
          rcases List.mem_cons.mp he with rfl | hmem
          · exact hall e hdigit
          · exact hds e hmem
        have hnumeral := Numeral.decimal hzero hall_ds
        rwa [value, hd, Option.getD_some] at hnumeral

/-! ## what is an address -/

theorem ends_dot (rest : List Byte) : Ends (dot :: rest) := by
  intro c hc
  exact Or.inl (Option.some.inj hc).symm

/-- The numbers of a string, with dots between them. -/
def dotted (ps : List (List Byte × BitVec 32)) : List Byte := [dot].intercalate (ps.map Prod.fst)

theorem atonParts_of_dotted {ps : List (List Byte × BitVec 32)} {n : Nat} {behind : List Byte}
    (hps : ∀ p ∈ ps, Numeral p.1 p.2) (hsome : ps ≠ []) (hlen : ps.length ≤ n + 1)
    (hbehind : ∀ c ∈ behind.head?, lwip_isspace c) :
    atonParts n (dotted ps ++ behind) = some (ps.map Prod.snd, behind) := by
  induction ps generalizing n with
  | nil => exact absurd rfl hsome
  | cons p ps ih =>
      have hp := hps p (by simp)
      cases ps with
      | nil =>
          have hends : Ends behind := fun c hc => Or.inr (hbehind c hc)
          have hread := hp.read hends
          rw [atonParts, dotted, List.map_singleton, List.intercalate_singleton, hread]
          cases behind with
          | nil => rfl
          | cons c behind =>
              have hall : ∀ c : Byte, lwip_isspace c → c ≠ dot := by decide
              dsimp only
              rw [if_neg (hall c (hbehind c rfl))]
              rfl
      | cons p' ps =>
          cases n with
          | zero => simp at hlen
          | succ n =>
              have hnext := ih (n := n) (fun q hq => hps q (by simp [hq])) (by simp)
                (by simpa using hlen)
              have hread := hp.read (ends_dot (dotted (p' :: ps) ++ behind))
              rw [atonParts, dotted, List.map_cons, List.map_cons, List.intercalate_cons_cons,
                ← List.map_cons, ← dotted, List.append_assoc, List.append_assoc,
                List.singleton_append, hread]
              dsimp only
              rw [if_pos rfl, hnext]
              rfl

theorem dotted_single {s : List Byte} {val : BitVec 32} (hs : Numeral s val) (rest : List Byte) :
    ∃ ps : List (List Byte × BitVec 32), (∀ p ∈ ps, Numeral p.1 p.2) ∧ ps ≠ [] ∧
      s ++ rest = dotted ps ++ rest ∧ [val] = ps.map Prod.snd :=
  ⟨[(s, val)], by simpa using hs, by simp, by simp [dotted], rfl⟩

theorem dotted_of_atonParts {n : Nat} {cp rest : List Byte} {vals : List (BitVec 32)}
    (h : atonParts n cp = some (vals, rest)) :
    ∃ ps, (∀ p ∈ ps, Numeral p.1 p.2) ∧ ps ≠ [] ∧ cp = dotted ps ++ rest ∧
      vals = ps.map Prod.snd := by
  induction n generalizing cp vals with
  | zero =>
      rw [atonParts] at h
      split at h
      · cases h
      · rename_i val hnumber
        cases h
        obtain ⟨s, hs, rfl⟩ := numeral_of_atonNumber hnumber
        exact dotted_single hs []
      · rename_i val c cp' hnumber
        obtain ⟨s, hs, rfl⟩ := numeral_of_atonNumber hnumber
        split at h
        · cases h
        · cases h
          exact dotted_single hs (c :: cp')
  | succ n ih =>
      rw [atonParts] at h
      split at h
      · cases h
      · rename_i val hnumber
        cases h
        obtain ⟨s, hs, rfl⟩ := numeral_of_atonNumber hnumber
        exact dotted_single hs []
      · rename_i val c cp' hnumber
        obtain ⟨s, hs, rfl⟩ := numeral_of_atonNumber hnumber
        split at h
        · rename_i hdot
          obtain ⟨⟨vals', rest'⟩, hparts, heq⟩ := Option.map_eq_some_iff.mp h
          obtain ⟨rfl, rfl⟩ := Prod.mk.inj heq
          obtain ⟨ps, hps, hsome, rfl, rfl⟩ := ih hparts
          obtain ⟨p, ps, rfl⟩ := List.exists_cons_of_ne_nil hsome
          refine ⟨(s, val) :: p :: ps, ?_, by simp, by simp [dotted, hdot], rfl⟩
          simpa using ⟨hs, by simpa using hps⟩
        · cases h
          exact dotted_single hs (c :: cp')

theorem length_of_atonAddress {vals : List (BitVec 32)} {addr : BitVec 32}
    (h : atonAddress vals = some addr) : vals ≠ [] ∧ vals.length ≤ 4 := by
  unfold atonAddress at h
  split at h <;> simp_all

theorem aton_of_dotted {ps : List (List Byte × BitVec 32)} {behind : List Byte} {addr : BitVec 32}
    (hps : ∀ p ∈ ps, Numeral p.1 p.2) (hspace : ∀ c ∈ behind.head?, lwip_isspace c)
    (haddr : (atonAddress (ps.map Prod.snd)).map lwip_htonl = some addr) :
    ip4addr_aton (dotted ps ++ behind) = some addr := by
  obtain ⟨a, ha, -⟩ := Option.map_eq_some_iff.mp haddr
  obtain ⟨hsome, hlen⟩ := length_of_atonAddress ha
  unfold ip4addr_aton
  rw [atonParts_of_dotted (n := 3) hps (by simpa using hsome) (by simpa using hlen) hspace]
  dsimp only
  rw [if_pos hspace, haddr]

/-- A string is an address if and only if it is numbers with dots between them, for which there
is room, and then nothing or a white space character. -/
theorem aton_iff (cp : List Byte) (addr : BitVec 32) :
    ip4addr_aton cp = some addr ↔
      ∃ ps behind, (∀ p ∈ ps, Numeral p.1 p.2) ∧ cp = dotted ps ++ behind ∧
        (∀ c ∈ behind.head?, lwip_isspace c) ∧
        (atonAddress (ps.map Prod.snd)).map lwip_htonl = some addr := by
  constructor
  · intro h
    unfold ip4addr_aton at h
    split at h
    · cases h
    · rename_i vals rest hparts
      split at h
      · rename_i hspace
        obtain ⟨ps, hps, -, rfl, rfl⟩ := dotted_of_atonParts hparts
        exact ⟨ps, rest, hps, rfl, hspace, h⟩
      · cases h
  · rintro ⟨ps, behind, hps, rfl, hspace, haddr⟩
    exact aton_of_dotted hps hspace haddr

/-! ## round trip -/

theorem decimal_numeral (n : Byte) : Numeral (decimal 3 n) (n.setWidth 32) := by
  have hall : ∀ k < 256, k ≠ 0 → decimal 3 (BitVec.ofNat 8 k) ≠ [] ∧
      (decimal 3 (BitVec.ofNat 8 k)).head? ≠ some 0x30 ∧
      (decimal 3 (BitVec.ofNat 8 k)).all (fun d => (digit? 10 d).isSome) ∧
      value 10 0 (decimal 3 (BitVec.ofNat 8 k)) = BitVec.ofNat 32 k := by
    decide +kernel
  by_cases hn : n = 0
  · subst hn
    rw [show decimal 3 0 = [0x30] by decide, show (0 : Byte).setWidth 32 = value 8 0 [] by decide]
    exact .octal (by simp)
  · obtain ⟨hsome, hfirst, hdigits, hvalue⟩ := hall n.toNat n.isLt fun h => hn (BitVec.toNat_inj.mp h)
    rw [BitVec.ofNat_toNat, BitVec.setWidth_eq] at hsome hfirst hdigits hvalue
    obtain ⟨c, ds, hds⟩ := List.exists_cons_of_ne_nil hsome
    rw [hds] at hfirst hdigits hvalue ⊢
    rw [← BitVec.ofNat_toNat, ← hvalue]
    exact .decimal (by simpa using hfirst) (List.all_eq_true.mp hdigits)

theorem foldl_putChar_none (buflen : Nat) (cs : List Byte) :
    cs.foldl (putChar buflen) none = none := by
  induction cs with
  | nil => rfl
  | cons c cs ih => simpa [putChar] using ih

/-- As long as there is room for it, a string is written. -/
theorem foldl_putChar {buflen : Nat} {buf : List Byte} (cs : List Byte) (h : buf.length ≤ buflen) :
    cs.foldl (putChar buflen) (some buf) =
      if buf.length + cs.length ≤ buflen then some (buf ++ cs) else none := by
  induction cs generalizing buf with
  | nil => simp [h]
  | cons c cs ih =>
      rw [List.foldl_cons, putChar, Option.bind_some, List.length_cons]
      split
      · rw [foldl_putChar_none, if_neg (by omega)]
      · have hlen : (buf ++ [c]).length = buf.length + 1 := by simp
        rw [ih (by omega), hlen, Nat.add_assoc, Nat.add_comm 1, List.append_assoc]
        rfl

theorem shiftLeft_or_nat {x y i : Nat} (h : y < 2 ^ i) : x <<< i ||| y = x * 2 ^ i + y := by
  rw [← Nat.shiftLeft_add_eq_or_of_lt h, Nat.shiftLeft_eq]

theorem toNat_lwip_htonl (x : BitVec 32) :
    (lwip_htonl x).toNat = x.toNat % 256 * 2 ^ 24 + x.toNat / 2 ^ 8 % 256 * 2 ^ 16 +
      x.toNat / 2 ^ 16 % 256 * 2 ^ 8 + x.toNat / 2 ^ 24 % 256 := by
  simp only [lwip_htonl, BitVec.toNat_append, BitVec.extractLsb'_toNat, Nat.shiftRight_eq_div_pow]
  have hlt (n : Nat) : n % 2 ^ 8 < 2 ^ 8 := Nat.mod_lt _ (by decide)
  rw [shiftLeft_or_nat (hlt _), shiftLeft_or_nat (hlt _), shiftLeft_or_nat (hlt _)]
  omega

theorem htonl_host {x a b c d : Nat} (ha : a < 256) (hb : b < 256) (hc : c < 256) (hd : d < 256)
    (hx : x = a * 2 ^ 24 + b * 2 ^ 16 + c * 2 ^ 8 + d) :
    x % 256 = d ∧ x / 2 ^ 8 % 256 = c ∧ x / 2 ^ 16 % 256 = b ∧ x / 2 ^ 24 % 256 = a := by
  refine ⟨?_, ?_, ?_, ?_⟩ <;> omega

/-- The octets, as `ip4addr_aton` puts them together. -/
theorem toNat_host (a b c d : Byte) :
    (d.setWidth 32 ||| (a.setWidth 32 <<< 24 ||| b.setWidth 32 <<< 16 ||| c.setWidth 32 <<< 8)).toNat
      = a.toNat * 2 ^ 24 + b.toNat * 2 ^ 16 + c.toNat * 2 ^ 8 + d.toNat := by
  have ha := a.isLt
  have hb := b.isLt
  have hc := c.isLt
  have hshift (n : Byte) (i : Nat) (hi : i ≤ 24) :
      (n.setWidth 32 <<< i).toNat = n.toNat <<< i := by
    have hpow : 2 ^ i ≤ 2 ^ 24 := Nat.pow_le_pow_right (by decide) hi
    have hmul : n.toNat * 2 ^ i < 2 ^ 8 * 2 ^ 24 :=
      Nat.mul_lt_mul_of_lt_of_le n.isLt hpow (by decide)
    rw [BitVec.toNat_shiftLeft, BitVec.toNat_setWidth,
      Nat.mod_eq_of_lt (Nat.lt_trans n.isLt (by decide)), Nat.shiftLeft_eq,
      Nat.mod_eq_of_lt (by omega)]
  rw [BitVec.or_comm, BitVec.toNat_or, BitVec.toNat_or, BitVec.toNat_or, hshift a 24 (by omega),
    hshift b 16 (by omega), hshift c 8 (by omega), BitVec.toNat_setWidth,
    Nat.mod_eq_of_lt (Nat.lt_trans d.isLt (by decide))]
  have hab : a.toNat <<< 24 ||| b.toNat <<< 16 = (a.toNat * 2 ^ 8 + b.toNat) <<< 16 := by
    rw [shiftLeft_or_nat (by rw [Nat.shiftLeft_eq]; omega), Nat.shiftLeft_eq, Nat.shiftLeft_eq]
    omega
  have habc : (a.toNat * 2 ^ 8 + b.toNat) <<< 16 ||| c.toNat <<< 8 =
      (a.toNat * 2 ^ 16 + b.toNat * 2 ^ 8 + c.toNat) <<< 8 := by
    rw [shiftLeft_or_nat (by rw [Nat.shiftLeft_eq]; omega), Nat.shiftLeft_eq, Nat.shiftLeft_eq]
    omega
  rw [hab, habc, shiftLeft_or_nat d.isLt]
  omega

theorem address_octets (addr : BitVec 32) :
    (atonAddress ((octets addr).map fun n => n.setWidth 32)).map lwip_htonl = some addr := by
  have hle (n : Byte) : ¬(0xff : BitVec 32) < n.setWidth 32 := by
    rw [BitVec.lt_def, BitVec.toNat_setWidth]
    have := n.isLt
    simp
    omega
  simp only [octets, List.map_cons, List.map_nil, atonAddress, hle, or_self, if_false, Option.map_some,
    Option.some.injEq]
  rw [← BitVec.toNat_inj, toNat_lwip_htonl]
  obtain ⟨h₀, h₁, h₂, h₃⟩ := htonl_host (BitVec.isLt _) (BitVec.isLt _) (BitVec.isLt _)
    (BitVec.isLt _) (toNat_host (addr.extractLsb' 0 8) (addr.extractLsb' 8 8)
      (addr.extractLsb' 16 8) (addr.extractLsb' 24 8))
  rw [h₀, h₁, h₂, h₃]
  simp only [BitVec.extractLsb'_toNat, Nat.shiftRight_eq_div_pow]
  have := addr.isLt
  omega

theorem flatMap_dot {ls : List (List Byte)} (h : ls ≠ []) :
    ls.flatMap (fun l => l ++ [dot]) = [dot].intercalate ls ++ [dot] := by
  induction ls with
  | nil => exact absurd rfl h
  | cons l ls ih =>
      cases ls with
      | nil => simp
      | cons l' ls =>
          rw [List.flatMap_cons, ih (by simp)]
          simp

/-- The decimal digits of an address, with a dot behind each octet. -/
def digitsOf (addr : BitVec 32) : List Byte := (octets addr).flatMap fun n => decimal 3 n ++ [dot]

theorem ip4addr_ntoa_r_eq (addr : BitVec 32) (buflen : Nat) :
    ip4addr_ntoa_r addr buflen =
      if (digitsOf addr).length ≤ buflen then some (digitsOf addr).dropLast else none := by
  unfold ip4addr_ntoa_r
  rw [foldl_putChar _ (Nat.zero_le _), List.length_nil, Nat.zero_add, List.nil_append, ← digitsOf]
  split <;> rfl

theorem dropLast_digitsOf (addr : BitVec 32) :
    (digitsOf addr).dropLast = dotted ((octets addr).map fun n => (decimal 3 n, n.setWidth 32)) := by
  have hsome : (octets addr).map (decimal 3) ≠ [] := by simp [octets]
  have hdots := flatMap_dot hsome
  rw [List.flatMap_map] at hdots
  rw [digitsOf, hdots, List.dropLast_concat, dotted, List.map_map]
  rfl

theorem length_decimal (k : Nat) (n : Byte) : (decimal k n).length ≤ k := by
  induction k generalizing n with
  | zero => simp [decimal]
  | succ k ih =>
      have := ih (n / 10)
      rw [decimal, List.length_append]
      split
      · simp
      · simpa using this

/-- `IP4ADDR_STRLEN_MAX`. -/
def IP4ADDR_STRLEN_MAX : Nat := 16

theorem length_digitsOf (addr : BitVec 32) : (digitsOf addr).length ≤ IP4ADDR_STRLEN_MAX := by
  have h₀ := length_decimal 3 (addr.extractLsb' 0 8)
  have h₁ := length_decimal 3 (addr.extractLsb' 8 8)
  have h₂ := length_decimal 3 (addr.extractLsb' 16 8)
  have h₃ := length_decimal 3 (addr.extractLsb' 24 8)
  simp only [digitsOf, octets, List.flatMap_cons, List.flatMap_nil, List.length_append,
    List.length_cons, List.length_nil, IP4ADDR_STRLEN_MAX]
  omega

/-- Each address is written if the buffer has `IP4ADDR_STRLEN_MAX` bytes; what is written of it,
into any buffer, fits with the zero behind it and is read back as this address. -/
theorem aton_ntoa (addr : BitVec 32) (buflen : Nat) :
    (IP4ADDR_STRLEN_MAX ≤ buflen → (ip4addr_ntoa_r addr buflen).isSome) ∧
      ∀ buf, ip4addr_ntoa_r addr buflen = some buf →
        buf.length < buflen ∧ ip4addr_aton buf = some addr := by
  rw [ip4addr_ntoa_r_eq]
  have hmax := length_digitsOf addr
  have hpos : 0 < (digitsOf addr).length := by
    rw [digitsOf, octets, List.flatMap_cons, List.length_append, List.length_append]
    simp only [List.length_cons]
    omega
  refine ⟨fun hlen => by rw [if_pos (by omega)]; rfl, fun buf h => ?_⟩
  split at h
  swap
  · cases h
  obtain rfl := Option.some.inj h
  refine ⟨by rw [List.length_dropLast]; omega, ?_⟩
  rw [dropLast_digitsOf, ← List.append_nil (dotted _)]
  refine aton_of_dotted (fun p hp => ?_) (by simp) ?_
  · obtain ⟨n, -, rfl⟩ := List.mem_map.mp hp
    exact decimal_numeral n
  · rw [List.map_map]
    exact address_octets addr

/-- 10.0.0.1. -/
theorem aton_ntoa_private : ∃ buf, ip4addr_ntoa_r 0x0100000a IP4ADDR_STRLEN_MAX = some buf ∧
    ip4addr_aton buf = some 0x0100000a := by
  obtain ⟨hsome, hread⟩ := aton_ntoa 0x0100000a IP4ADDR_STRLEN_MAX
  obtain ⟨buf, hbuf⟩ := Option.isSome_iff_exists.mp (hsome (Nat.le_refl _))
  exact ⟨buf, hbuf, (hread buf hbuf).2⟩

end Enc28j60.Dns
