import Enc28j60.Mqtt.Parts
import Enc28j60.Mqtt.Safety

/-!
# Enc28j60.Mqtt.Incoming

PUBLISH messages on their way in, cut into segments anywhere.

Each segment is one pbuf and one call of the parser.  The application is given every
message whole, in order and once, if and only if no segment ends inside the variable
header of a message (`published_iff`): a fixed header is read again from `rx_buffer`, and
the payload is handed over part by part, but what there is of a variable header must be
in the first part.
-/

namespace Enc28j60.Mqtt

open App (Status MQTT_CONNECT_ACCEPTED MQTT_CONNECT_DISCONNECTED)

variable {κ : Type} {c c' : Client κ} {p : Chain} {s s' : Parse κ}

/-! ## messages -/

/-- A message as the server sends it. -/
structure Message where
  topic : List Byte
  payload : List Byte
  qos : Byte
  retain : Bool
  pkt_id : BitVec 16

namespace Message

variable (m : Message)

def packet : Packet := .publish m.topic m.payload m.qos m.retain m.pkt_id

def bytes : List Byte := m.packet.encode

/-- The length of the fixed header. -/
def fixed : Nat := 1 + (Base128.encode m.packet.body.length).length

/-- The length of the variable header. -/
def variable_ : Nat := 2 + m.topic.length + if 0 < m.qos then 2 else 0

/-- What the client takes: a length of four bytes at most, and headers that fit its buffer,
with a byte to spare in a message without an identifier. -/
structure Fits : Prop where
  qos : m.qos < 3
  len : m.packet.body.length < 2 ^ 28
  headers : m.fixed + m.variable_ + (if 0 < m.qos then 0 else 1) ≤ MQTT_VAR_HEADER_BUFFER_LEN

/-- What the application is to be told. -/
def delivered : List Byte × BitVec 32 × List Byte :=
  (m.topic, BitVec.ofNat 32 m.payload.length, m.payload)

/-- The identifier that is kept for the response. -/
def id : BitVec 16 := if 0 < m.qos then m.pkt_id else 0

theorem body_eq : m.packet.body =
    stringBytes m.topic ++ (if 0 < m.qos then u16Bytes m.pkt_id else []) ++ m.payload := rfl

theorem length_body : m.packet.body.length = m.variable_ + m.payload.length := by
  rw [body_eq, variable_]
  split
  · simp
    omega
  · simp

theorem bytes_eq : m.bytes =
    m.packet.control :: Base128.encode m.packet.body.length ++ m.packet.body := rfl

theorem length_bytes : m.bytes.length = m.fixed + m.packet.body.length := by
  simp [bytes_eq, fixed]
  omega

theorem drop_fixed : m.bytes.drop m.fixed = m.packet.body := by
  have hsplit : m.bytes = (m.packet.control :: Base128.encode m.packet.body.length) ++
      m.packet.body := rfl
  rw [hsplit, List.drop_left']
  simp [fixed, Nat.add_comm]

theorem drop_headers : m.bytes.drop (m.fixed + m.variable_) = m.payload := by
  rw [← List.drop_drop, drop_fixed, body_eq, List.drop_left']
  rw [variable_]
  split <;> simp

end Message

theorem more_iff (b : Byte) : Base128.more b ↔ b &&& 0x80 ≠ 0 := by
  have hall : ∀ b : Byte, Base128.more b ↔ b &&& 0x80 ≠ 0 := by decide
  exact hall b

/-- The length bytes of a header that are an encoded number. -/
theorem header_encode {rx : Nat → Byte} {n : Nat} (hn : n < 2 ^ 28)
    (hrx : Mem.load rx 1 (Base128.encode n).length = Base128.encode n) :
    Header rx (1 + (Base128.encode n).length) ∧
      (remLen rx (Base128.encode n).length).toNat = n := by
  have hlen := Base128.length_encode_le (show n < 128 ^ (3 + 1) by omega)
  have hdecode := Base128.decode_encode n []
  rw [List.append_nil] at hdecode
  obtain ⟨front, last, hsplit, hfront, hlast, hvalue⟩ := Base128.decode_eq_some_nil hdecode
  have hlength : (Base128.encode n).length = front.length + 1 := by simp [hsplit]
  have hget (k : Nat) (hk : k < (Base128.encode n).length) :
      rx (1 + k) = (Base128.encode n)[k] := by
    have hload := List.getElem_of_eq hrx (i := k) (by simpa using hk)
    simpa [Mem.load] using hload
  refine ⟨⟨by omega, by omega, fun i h₁ h₂ => ?_, ?_⟩, ?_⟩
  · have hi := hget (i - 1) (by omega)
    have hlt : i - 1 < (Base128.encode n).length := by omega
    have hmem : (Base128.encode n)[i - 1] ∈ front := by
      have := List.getElem_of_eq hsplit (i := i - 1) (by omega)
      rw [this, List.getElem_append_left (by omega)]
      exact List.getElem_mem _
    rw [show i = 1 + (i - 1) by omega, hi]
    exact (more_iff _).mp (hfront _ hmem)
  · have hi := hget front.length (by omega)
    have hend := List.getElem_of_eq hsplit (i := front.length) (by omega)
    rw [List.getElem_append_right (by omega)] at hend
    rw [show 1 + (Base128.encode n).length - 1 = 1 + front.length by omega, hi, hend]
    by_contra hmore
    have := (more_iff last).mpr (by simpa using hmore)
    simp [hlast] at this
  · rw [toNat_remLen (by omega), hrx, ← hvalue]

/-! ## the fixed header -/

theorem getElem_of_pbuf_get_at {off : Nat} (h : off < p.bytes.length) :
    p.bytes[off] = pbuf_get_at p.bufs off := by
  have hdrop : p.bytes.drop off = pbuf_get_at p.bufs off :: p.bytes.drop (off + 1) :=
    pbuf_get_at_eq h
  rw [List.drop_eq_getElem_cons h] at hdrop
  exact (List.cons.inj hdrop).1

theorem Parsing.atBody (hs : Parsing s) (hh : Header s.client.rx_buffer s.fixed_hdr_len.toNat) :
    AtBody s := by
  rcases hs with hs | hs
  · exact absurd (hh.not_open hs.front) (Nat.lt_irrefl _)
  · exact hs

/-- The fixed header up to byte `t`: what is in the buffer of it, and then what the chain
has of it. -/
structure Reads (p : Chain) (s : Parse κ) (hdr : Nat → Byte) (t : Nat) : Prop where
  fixed : s.fixed_hdr_len.toNat ≤ t
  old : ∀ i < s.client.msg_idx.toNat, i < t → s.client.rx_buffer i = hdr i
  more : s.fixed_hdr_len.toNat < s.client.msg_idx.toNat → s.in_offset.toNat < p.bytes.length
  avail : s.in_offset.toNat + (t - s.client.msg_idx.toNat) ≤ p.bytes.length
  bytes : ∀ i, s.client.msg_idx.toNat ≤ i → i < t →
    p.bytes[s.in_offset.toNat + (i - s.client.msg_idx.toNat)]? = some (hdr i)

/-- Where it has been read to. -/
structure ReadTo (s : Parse κ) (off : Nat) (hdr : Nat → Byte) (t : Nat) (s' : Parse κ) :
    Prop where
  parsing : Parsing s'
  fixed : s'.fixed_hdr_len.toNat = t
  idx : s'.client.msg_idx.toNat = max s.client.msg_idx.toNat t
  offset : s'.in_offset.toNat = off
  buffer : ∀ i < t, s'.client.rx_buffer i = hdr i
  client : Effect s.client s'.client []

theorem header_round {hdr : Nat → Byte} {h t : Nat} (hs : AtHeader s) (hr : Reads p s hdr t)
    (hh : Header hdr h) (hne : remLen hdr (h - 1) ≠ 0) (hth : t ≤ h)
    (hlt : s.fixed_hdr_len.toNat < t) :
    ∃ s', parseRound p s = .next s' ∧ Parsing s' ∧ Reads p s' hdr t ∧
      s'.fixed_hdr_len.toNat = s.fixed_hdr_len.toNat + 1 ∧
      s'.fixed_hdr_len.toNat ≤ s'.client.msg_idx.toNat ∧
      s'.in_offset.toNat + (t - s'.client.msg_idx.toNat) =
        s.in_offset.toNat + (t - s.client.msg_idx.toNat) ∧
      max s'.client.msg_idx.toNat t = max s.client.msg_idx.toNat t ∧
      Effect s.client s'.client [] := by
  have hmost := hh.most
  have hbehind := hs.behind
  have havail := hr.avail
  have hin : s.in_offset.toNat < p.bytes.length := by
    by_cases heq : s.fixed_hdr_len.toNat < s.client.msg_idx.toNat
    · exact hr.more heq
    · omega
  have hoff : s.in_offset < p.tot_len := by rwa [BitVec.lt_def, Chain.toNat_tot_len]
  obtain ⟨s₁, hs₁, hparsing, -, hbehind₁, hround⟩ := (parseHeader_spec hs hoff).2 (by omega)
  have hcount : (s.fixed_hdr_len + 1).toNat = s.fixed_hdr_len.toNat + 1 := by
    rw [BitVec.toNat_add]
    simp
    omega
  refine ⟨s₁, by rw [parseRound_eq, if_pos hoff, if_pos hs.reading, hs₁], hparsing, ?_⟩
  cases hround with
  | reread hold hfixed hclient hoffset =>
      refine ⟨⟨?_, ?_, ?_, ?_, ?_⟩, ?_, hbehind₁, ?_, ?_, ?_⟩
      · rw [hfixed, hcount]
        omega
      · rw [hclient]
        exact hr.old
      · rw [hoffset]
        exact fun _ => hin
      · rw [hclient, hoffset]
        exact havail
      · rw [hclient, hoffset]
        exact hr.bytes
      · rw [hfixed, hcount]
      · rw [hclient, hoffset]
      · rw [hclient]
      · rw [hclient]
        exact Effect.refl _
  | read rx hfresh hoffset hold hnew hclient =>
      have hfits := p.fits
      have hnext : s₁.in_offset.toNat = s.in_offset.toNat + 1 := by
        rw [hoffset, BitVec.toNat_add]
        simp
        unfold Chain.bytes at hin
        omega
      have hidx : (s.client.msg_idx + 1).toNat = s.client.msg_idx.toNat + 1 := by
        rw [BitVec.toNat_add]
        simp
        omega
      have hbyte : rx s.fixed_hdr_len.toNat = hdr s.fixed_hdr_len.toNat := by
        have hget := hr.bytes s.fixed_hdr_len.toNat (by omega) hlt
        rw [hfresh, Nat.sub_self, Nat.add_zero, List.getElem?_eq_getElem hin,
          getElem_of_pbuf_get_at hin] at hget
        rw [hnew, hfresh]
        exact Option.some.inj hget
      have hsame : ∀ i < s.fixed_hdr_len.toNat + 1, rx i = hdr i := fun i hi => by
        rcases Nat.lt_or_eq_of_le (Nat.le_of_lt_succ hi) with hlt | rfl
        · rw [hold i hlt, hr.old i (by omega) (by omega)]
        · exact hbyte
      rcases hclient with ⟨hfixed, hclient⟩ | ⟨-, hheader, hzero⟩
      · have hidx₁ : s₁.client.msg_idx.toNat = s.client.msg_idx.toNat + 1 := by rw [hclient, hidx]
        refine ⟨⟨?_, ?_, ?_, ?_, ?_⟩, ?_, hbehind₁, ?_, ?_, ?_⟩
        · rw [hfixed, hcount]
          omega
        · rw [hclient, hidx, ← hfresh]
          exact fun i hi _ => hsame i hi
        · rw [hfixed, hcount]
          omega
        · omega
        · intro i h₁ h₂
          rw [← hr.bytes i (by omega) h₂]
          congr 1
          omega
        · rw [hfixed, hcount]
        · omega
        · omega
        · rw [hclient]
          exact ⟨rfl, .of_eq rfl⟩
      · -- a message without a body
        have hhdr := hheader.congr fun i hi => (hsame i hi).symm
        obtain rfl := hhdr.unique hh
        rw [Nat.add_sub_cancel] at hne
        refine absurd ?_ hne
        rw [← hzero]
        exact remLen_congr fun i _ hi => (hsame i (by omega)).symm

theorem header_run {hdr : Nat → Byte} {h t : Nat} (hs : AtHeader s) (hr : Reads p s hdr t)
    (hh : Header hdr h) (hne : remLen hdr (h - 1) ≠ 0) (hth : t ≤ h) :
    ∃ s', Machine.Reaches (parseRound p) s s' ∧
      ReadTo s (s.in_offset.toNat + (t - s.client.msg_idx.toNat)) hdr t s' := by
  have hends (s' : Parse κ) (hfixed : s'.fixed_hdr_len.toNat = t) (hr' : Reads p s' hdr t)
      (hparsing : Parsing s') (hbehind : s'.fixed_hdr_len.toNat ≤ s'.client.msg_idx.toNat) :
      ReadTo s' (s'.in_offset.toNat + (t - s'.client.msg_idx.toNat)) hdr t s' := by
    exact ⟨hparsing, hfixed, by omega, by omega, fun i hi => hr'.old i (by omega) hi,
      Effect.refl _⟩
  induction hk : t - s.fixed_hdr_len.toNat generalizing s with
  | zero =>
      have hfixed := hr.fixed
      exact ⟨s, Machine.Reaches.refl s, hends s (by omega) hr (Or.inl hs) hs.behind⟩
  | succ k ih =>
      obtain ⟨s₁, hround, hparsing, hr₁, hcount, hbehind, hoffset, hmax, heffect⟩ :=
        header_round hs hr hh hne hth (by omega)
      have hreach := Machine.Reaches.of_step hround
      have hwhole : ∃ s', Machine.Reaches (parseRound p) s₁ s' ∧
          ReadTo s₁ (s₁.in_offset.toNat + (t - s₁.client.msg_idx.toNat)) hdr t s' := by
        rcases hparsing with hheader | hbody
        · exact ih hheader hr₁ (by omega)
        · -- the header is complete, and `t` is its length
          have hfixed := hr₁.fixed
          have hhdr := hbody.header.congr fun i hi => (hr₁.old i (by omega) (by omega)).symm
          have hlen := hhdr.unique hh
          exact ⟨s₁, Machine.Reaches.refl s₁, hends s₁ (by omega) hr₁ (Or.inr hbody) hbehind⟩
      obtain ⟨s', hreach', hto⟩ := hwhole
      rw [hoffset] at hto
      exact ⟨s', hreach.trans hreach',
        ⟨hto.parsing, hto.fixed, hto.idx.trans hmax, hto.offset, hto.buffer, heffect.quiet hto.client⟩⟩

/-! ## the parts of a message -/

theorem toNat_cpyLen_contiguous (hone : p.len = p.tot_len)
    (hoff : s.in_offset.toNat < p.bytes.length) (hfixed : s.fixed_hdr_len.toNat ≤ 128) :
    (cpyLen p s).toNat = least p s := by
  have hleast := (least_le p s).1
  have hlen : p.len.toNat = p.bytes.length := by rw [hone, Chain.toNat_tot_len]
  rw [toNat_cpyLen hoff hfixed, if_neg]
  omega

/-- The data of the next part. -/
def part (p : Chain) (s : Parse κ) : List Byte := (p.bytes.drop s.in_offset.toNat).take (least p s)

/-- Behind a part that is accepted. -/
structure Behind (p : Chain) (s s' : Parse κ) (calls : List (Call κ)) : Prop where
  effect : Effect s.client s'.client calls
  offset : s'.in_offset.toNat = s.in_offset.toNat + least p s
  done : s.msg_rem_len.toNat = least p s →
    AtHeader s' ∧ s'.fixed_hdr_len = 0 ∧ s'.client.msg_idx = 0
  more : s.msg_rem_len.toNat ≠ least p s →
    AtBody s' ∧ s'.fixed_hdr_len = s.fixed_hdr_len ∧
      s'.client.msg_idx.toNat = s.client.msg_idx.toNat + least p s ∧
      ∀ i < s.fixed_hdr_len.toNat, s'.client.rx_buffer i = s.client.rx_buffer i

theorem body_round (hs : AtBody s) (hone : p.len = p.tot_len) (hwnd : p.bytes.length ≤ TCP_WND)
    (hoff : s.in_offset.toNat < p.bytes.length)
    (hidx : s.msg_rem_len.toNat + s.client.msg_idx.toNat < 2 ^ 32) :
    ∃ c₁ : Client κ, c₁.core = s.client.core ∧
      (∀ i < s.fixed_hdr_len.toNat, c₁.rx_buffer i = s.client.rx_buffer i) ∧
      c₁.msg_idx = s.client.msg_idx + (cpyLen p s).setWidth 32 ∧
      ∃ res, mqtt_message_received s.fixed_hdr_len (cpyLen p s)
          (s.msg_rem_len - (cpyLen p s).setWidth 32) (some (part p s)) c₁ = some res ∧
        (res.1 ≠ MQTT_CONNECT_ACCEPTED → parseRound p s = .ret res) ∧
        ∀ calls, res.1 = MQTT_CONNECT_ACCEPTED → Effect c₁ res.2 calls →
          ∃ s', parseRound p s = .next s' ∧ Behind p s s' calls := by
  have hmost := hs.header.most
  have hleast := least_le p s
  have hcpy := toNat_cpyLen_contiguous hone hoff (by omega)
  have hoff' : s.in_offset < p.tot_len := by rwa [BitVec.lt_def, Chain.toNat_tot_len]
  obtain ⟨rx, hrx, -, res, hres, hbody⟩ := parseBody_eq hoff (by omega) (by omega)
  rw [hcpy] at hres
  have hround : parseRound p s = bodyDone (cpyLen p s) s res := by
    rw [parseRound_eq, if_pos hoff', if_neg hs.done, hbody]
  refine ⟨{ s.client with
    rx_buffer := rx, msg_idx := s.client.msg_idx + (cpyLen p s).setWidth 32 },
    rfl, hrx, rfl, res, hres, fun hrefused => ?_, fun calls haccepted heffect => ?_⟩
  · rw [hround]
    exact if_pos hrefused
  obtain ⟨hbuffer, hidx₁⟩ := Prod.mk.inj (parser_mqtt_message_received hres)
  dsimp only at hbuffer hidx₁
  have hkeeps : ∀ s', parseRound p s = .next s' → Parsing s' :=
    fun s' => parseRound_parsing (Or.inr hs) hwnd
  have heffect' : Effect s.client res.2 calls := ⟨heffect.core, heffect.calls⟩
  have hfits := p.fits
  have hwidth : ((cpyLen p s).setWidth 32).toNat = least p s := by
    rw [BitVec.toNat_setWidth, hcpy, Nat.mod_eq_of_lt (by omega)]
  have hnext : (s.in_offset + cpyLen p s).toNat = s.in_offset.toNat + least p s := by
    unfold Chain.bytes at hleast hoff
    rw [BitVec.toNat_add, hcpy]
    omega
  have hrest : (s.msg_rem_len - (cpyLen p s).setWidth 32).toNat =
      s.msg_rem_len.toNat - least p s := by
    rw [BitVec.toNat_sub, hwidth]
    omega
  rw [hround] at hkeeps ⊢
  unfold bodyDone at hkeeps ⊢
  rw [if_neg (not_not.mpr haccepted)] at hkeeps ⊢
  dsimp only at hkeeps ⊢
  by_cases hdone : s.msg_rem_len - (cpyLen p s).setWidth 32 = 0
  · rw [if_pos hdone] at hkeeps ⊢
    have hzero : s.msg_rem_len.toNat - least p s = 0 := by rw [← hrest, hdone]; rfl
    refine ⟨_, rfl, heffect'.quiet ⟨rfl, .of_eq rfl⟩, hnext, fun _ => ⟨?_, rfl, rfl⟩, fun hne => ?_⟩
    · exact (hkeeps _ rfl).resolve_right fun hbody => hbody.done (Or.inl (by
        show (0 : BitVec 8) < 2
        decide))
    · omega
  · rw [if_neg hdone] at hkeeps ⊢
    have hpos : s.msg_rem_len.toNat - least p s ≠ 0 := fun hzero =>
      hdone (BitVec.eq_of_toNat_eq (by rw [hrest, hzero]; rfl))
    refine ⟨_, rfl, heffect', hnext, fun heq => absurd heq (by omega), fun _ => ⟨?_, rfl, ?_, ?_⟩⟩
    · exact (hkeeps _ rfl).resolve_left fun hheader => hs.done hheader.reading
    · rw [hidx₁, BitVec.toNat_add, hwidth]
      omega
    · rw [hbuffer]
      exact hrx

/-! ## a PUBLISH and its parts -/

theorem u16At_append (front : List Byte) (v : BitVec 16) (rest : List Byte) :
    u16At (front ++ (u16Bytes v ++ rest)) front.length = v := by
  have hlt := v.isLt
  unfold u16At u16Bytes
  apply BitVec.eq_of_toNat_eq
  simp [List.getD_eq_getElem?_getD, Nat.shiftLeft_eq, Nat.shiftRight_eq_div_pow]
  omega

theorem u16At_take {bs : List Byte} {i n : Nat} (h : i + 2 ≤ n) : u16At (bs.take n) i = u16At bs i := by
  unfold u16At
  simp only [List.getD_eq_getElem?_getD, List.getElem?_take]
  rw [if_pos (by omega), if_pos (by omega)]

namespace Message

variable {m : Message}

/-- The bytes of the fixed header. -/
def hdr (m : Message) (i : Nat) : Byte := m.bytes.getD i 0

theorem Fits.header (hm : m.Fits) :
    Header m.hdr m.fixed ∧ (remLen m.hdr (m.fixed - 1)).toNat = m.packet.body.length := by
  have hload : Mem.load m.hdr 1 (Base128.encode m.packet.body.length).length =
      Base128.encode m.packet.body.length := by
    apply List.ext_getElem
    · simp
    · intro k h₁ h₂
      simp [Mem.load, hdr, bytes_eq, Nat.add_comm 1 k, List.getElem?_append_left h₂,
        List.getElem?_eq_getElem h₂]
  have h := header_encode hm.len hload
  unfold fixed
  rw [Nat.add_sub_cancel_left]
  exact h

theorem headers_le (m : Message) :
    2 ≤ m.variable_ ∧ m.fixed + m.variable_ ≤ m.bytes.length := by
  rw [length_bytes, length_body]
  unfold variable_
  omega

theorem Fits.control (hm : m.Fits) :
    MQTT_CTL_PACKET_TYPE (m.hdr 0) = MQTT_MSG_TYPE_PUBLISH ∧ MQTT_CTL_PACKET_QOS (m.hdr 0) = m.qos := by
  have hall : ∀ qos : Byte, qos < 3 → ∀ r : Bool,
      let control : Byte := MQTT_MSG_TYPE_PUBLISH <<< 4 ||| qos <<< 1 ||| if r then 1 else 0
      MQTT_CTL_PACKET_TYPE control = MQTT_MSG_TYPE_PUBLISH ∧ MQTT_CTL_PACKET_QOS control = qos := by
    decide
  have hcontrol : m.hdr 0 = m.packet.control := rfl
  rw [hcontrol]
  exact hall m.qos hm.qos m.retain

/-- The first part of the body has the variable header, or is too short for it. -/
theorem Fits.firstPart (hm : m.Fits) {fixed_hdr_len : BitVec 8} {length : BitVec 16}
    (hfixed : fixed_hdr_len.toNat = m.fixed) :
    Mqtt.firstPart m.qos fixed_hdr_len length (m.packet.body.take length.toNat) =
      if length.toNat < m.variable_ then none else some (m.topic, m.id, m.variable_) := by
  have hheaders := hm.headers
  unfold variable_ MQTT_VAR_HEADER_BUFFER_LEN at hheaders
  have htopic : (BitVec.ofNat 16 m.topic.length).toNat = m.topic.length := by
    rw [BitVec.toNat_ofNat, Nat.mod_eq_of_lt (by omega)]
  have hpos : m.qos ≠ 0 ↔ 0 < m.qos := by
    rw [BitVec.lt_def, Ne, ← BitVec.toNat_inj]
    simp
  have hname : 2 ≤ length.toNat → u16At (m.packet.body.take length.toNat) 0 =
      BitVec.ofNat 16 m.topic.length := fun h => by
    rw [u16At_take h, body_eq, stringBytes, List.append_assoc, List.append_assoc]
    exact u16At_append [] _ _
  have hread : 2 + m.topic.length ≤ length.toNat →
      ((m.packet.body.take length.toNat).drop 2).take m.topic.length = m.topic := fun h => by
    rw [List.drop_take, List.take_take, Nat.min_eq_left (by omega)]
    simp [body_eq, stringBytes, u16Bytes]
  unfold Mqtt.firstPart publishHeader variable_ id MQTT_VAR_HEADER_BUFFER_LEN
  simp only [hpos, hfixed]
  by_cases hq : 0 < m.qos
  · simp only [if_pos hq] at hheaders ⊢
    by_cases hid : length.toNat < 2 + 2
    · rw [if_pos hid, if_pos (by omega)]
    rw [if_neg hid, hname (by omega), htopic]
    by_cases hshort : length.toNat < 2 + m.topic.length + 2
    · rw [if_pos (Or.inl (by omega)), if_pos hshort]
    have hpkt_id : u16At (m.packet.body.take length.toNat) (2 + m.topic.length) = m.pkt_id := by
      rw [u16At_take (by omega), body_eq, if_pos hq, List.append_assoc]
      have hread := u16At_append (stringBytes m.topic) m.pkt_id m.payload
      rwa [length_stringBytes] at hread
    rw [if_neg (by omega), if_neg (by omega), if_neg hshort, if_neg hshort, hread (by omega),
      hpkt_id]
  · simp only [if_neg hq] at hheaders ⊢
    by_cases hlen : length.toNat < 2 + 0
    · rw [if_pos hlen, if_pos (by omega)]
    rw [if_neg hlen, hname (by omega), htopic]
    by_cases hshort : length.toNat < 2 + m.topic.length + 0
    · rw [if_pos (Or.inl (by omega)), if_pos hshort]
    rw [if_neg (by omega), if_neg (by omega), if_neg hshort, hread (by omega)]
    rfl

/-- In a message: `used` bytes of it have been taken. -/
structure Begun (m : Message) (c : Client κ) (used : Nat) : Prop where
  idx : c.msg_idx.toNat = used
  buffer : ∀ i < used, i < m.fixed → c.rx_buffer i = m.hdr i
  uncut : used ≤ m.fixed ∨ m.fixed + m.variable_ ≤ used
  rest : used < m.bytes.length

variable {used : Nat}

/-- Behind the fixed header. -/
structure InBody (m : Message) (s : Parse κ) (used : Nat) : Prop extends AtBody s where
  fits : m.Fits
  fixed : s.fixed_hdr_len.toNat = m.fixed
  begun : m.Begun s.client used
  behind : m.fixed ≤ used

theorem InBody.numbers (h : m.InBody s used) :
    s.msg_rem_len.toNat = m.bytes.length - used ∧ s.fixed_hdr_len.toNat ≤ 5 ∧
      m.bytes.length < 2 ^ 28 + 5 ∧ s.client.rx_buffer 0 = m.hdr 0 := by
  have hheader := h.fits.header
  have hbody := h.fits.len
  have hrest := h.begun.rest
  have hbehind := h.behind
  have hlen := m.length_bytes
  have hsame : ∀ i < m.fixed, s.client.rx_buffer i = m.hdr i := fun i hi =>
    h.begun.buffer i (by omega) hi
  have hleast := hheader.1.least
  have hfive : m.fixed ≤ 5 := by
    have := Base128.length_encode_le (show m.packet.body.length < 128 ^ (3 + 1) by omega)
    unfold Message.fixed
    omega
  have hfixed := h.fixed
  have hrem : (remLen s.client.rx_buffer (s.fixed_hdr_len.toNat - 1)).toNat =
      m.packet.body.length := by
    rw [hfixed, ← hheader.2]
    exact congrArg BitVec.toNat (remLen_congr fun i _ hi => hsame i (by omega))
  have hwidth : (s.fixed_hdr_len.setWidth 32).toNat = m.fixed := by
    rw [BitVec.toNat_setWidth, hfixed, Nat.mod_eq_of_lt (by omega)]
  refine ⟨?_, by omega, by omega, hsame 0 (by omega)⟩
  rw [h.left, BitVec.toNat_sub, BitVec.toNat_add, hrem, hwidth, h.begun.idx]
  omega

/-- The next part of the message is what is next in the stream. -/
theorem InBody.part_eq (h : m.InBody s used) {tail future : List Byte}
    (hbytes : p.bytes.drop s.in_offset.toNat ++ future = (m.bytes ++ tail).drop used) :
    part p s = (m.bytes.drop used).take (least p s) := by
  have hleast := least_le p s
  have hrest := h.begun.rest
  have hleft := h.numbers.1
  have hown : ((p.bytes.drop s.in_offset.toNat) ++ future).take (least p s) = part p s :=
    List.take_append_of_le_length (by rw [List.length_drop]; omega)
  rw [← hown, hbytes, List.drop_append_of_le_length (by omega),
    List.take_append_of_le_length (by rw [List.length_drop]; omega)]

end Message

/-- The callbacks of incoming messages are set. -/
def Listens (c : Client κ) : Prop := c.pub_cb ∧ c.data_cb

theorem Effect.listens {calls : List (Call κ)} (h : Effect c c' calls) (hc : Listens c) :
    Listens c' := by
  unfold Listens
  rw [show c'.pub_cb = _ from congrArg Core.pub_cb h.core,
    show c'.data_cb = _ from congrArg Core.data_cb h.core]
  exact hc

/-- What the application is told of a part of the payload. -/
def payloadCalls (data : List Byte) (last : Bool) : List (Call κ) :=
  if data ≠ [] ∨ last then [.data_cb data last] else []

theorem dataCalls_eq (hcb : c.data_cb) (data : List Byte) (remaining_length : BitVec 32) :
    dataCalls c data remaining_length = payloadCalls data (remaining_length = 0) := by
  unfold dataCalls payloadCalls
  simp [hcb]

namespace Message

variable {m : Message} {used : Nat}

/-- The call of `mqtt_message_received` for the next part. -/
structure Receives (m : Message) (p : Chain) (s : Parse κ) (used : Nat) (c₁ : Client κ)
    (res : Status × Client κ) : Prop where
  core : c₁.core = s.client.core
  type : MQTT_CTL_PACKET_TYPE (c₁.rx_buffer 0) = MQTT_MSG_TYPE_PUBLISH
  qos : MQTT_CTL_PACKET_QOS (c₁.rx_buffer 0) = m.qos
  cpy : (cpyLen p s).toNat = least p s
  space : s.fixed_hdr_len.toNat + (cpyLen p s).toNat ≤ MQTT_VAR_HEADER_BUFFER_LEN
  length : (part p s).length = (cpyLen p s).toNat
  first : c₁.msg_idx = s.fixed_hdr_len.setWidth 32 + (cpyLen p s).setWidth 32 ↔ used = m.fixed
  rest : (s.msg_rem_len - (cpyLen p s).setWidth 32).toNat = m.bytes.length - used - least p s
  last : s.msg_rem_len - (cpyLen p s).setWidth 32 = 0 ↔ m.bytes.length = used + least p s
  received : mqtt_message_received s.fixed_hdr_len (cpyLen p s)
    (s.msg_rem_len - (cpyLen p s).setWidth 32) (some (part p s)) c₁ = some res
  refused : res.1 ≠ MQTT_CONNECT_ACCEPTED → parseRound p s = .ret res
  accepted : ∀ calls, res.1 = MQTT_CONNECT_ACCEPTED → Effect c₁ res.2 calls →
    ∃ s', parseRound p s = .next s' ∧ Behind p s s' calls

theorem InBody.receives (h : m.InBody s used) (hone : p.len = p.tot_len)
    (hwnd : p.bytes.length ≤ TCP_WND) (hoff : s.in_offset.toNat < p.bytes.length) :
    ∃ c₁ res, m.Receives p s used c₁ res := by
  obtain ⟨hrem, hfive, hsize, hzero⟩ := h.numbers
  have hleast := least_le p s
  have hrest := h.begun.rest
  have hidx := h.begun.idx
  have hfixed := h.fixed
  have hpos := h.header.least
  have hcpy := toNat_cpyLen_contiguous hone hoff (by omega)
  obtain ⟨c₁, hcore, hrx, hidx₁, res, hres, hrefused, haccepted⟩ :=
    body_round h.toAtBody hone hwnd hoff (by omega)
  have hcontrol := h.fits.control
  rw [← hzero, ← hrx 0 (by omega)] at hcontrol
  have hwidth : ((cpyLen p s).setWidth 32).toNat = least p s := by
    rw [BitVec.toNat_setWidth, hcpy, Nat.mod_eq_of_lt (by omega)]
  have hrem' : (s.msg_rem_len - (cpyLen p s).setWidth 32).toNat =
      m.bytes.length - used - least p s := by
    rw [BitVec.toNat_sub, hwidth]
    omega
  refine ⟨c₁, res, hcore, hcontrol.1, hcontrol.2, hcpy, ?_, ?_, ?_, hrem', ?_, hres, hrefused,
    haccepted⟩
  · unfold MQTT_VAR_HEADER_BUFFER_LEN at *
    omega
  · unfold part
    rw [List.length_take, List.length_drop]
    omega
  · have hfixed32 : (s.fixed_hdr_len.setWidth 32).toNat = m.fixed := by
      rw [BitVec.toNat_setWidth, hfixed, Nat.mod_eq_of_lt (by omega)]
    rw [hidx₁, BitVec.add_left_inj, ← BitVec.toNat_inj, hfixed32, hidx]
  · rw [← BitVec.toNat_inj, hrem', show (0 : BitVec 32).toNat = 0 from rfl]
    omega

/-- A part behind the headers is payload. -/
theorem InBody.later (h : m.InBody s used) (hcb : s.client.data_cb) (hone : p.len = p.tot_len)
    (hwnd : p.bytes.length ≤ TCP_WND) (hoff : s.in_offset.toNat < p.bytes.length)
    (hused : m.fixed < used) :
    ∃ s', parseRound p s = .next s' ∧
      Behind p s s' (payloadCalls (part p s) (m.bytes.length = used + least p s)) := by
  obtain ⟨c₁, res, hr⟩ := h.receives hone hwnd hoff
  have hcb₁ : c₁.data_cb := by rwa [show c₁.data_cb = _ from congrArg Core.data_cb hr.core]
  obtain ⟨c', hc', heffect⟩ := publish_later hr.type hr.space
    (s.msg_rem_len - (cpyLen p s).setWidth 32) hr.length (mt hr.first.mp (by omega))
  obtain rfl := Option.some.inj (hc'.symm.trans hr.received)
  rw [dataCalls_eq hcb₁] at heffect
  simp only [hr.last] at heffect
  exact hr.accepted _ rfl heffect

/-- The first part announces the message, if it has the variable header. -/
theorem InBody.first (h : m.InBody s used) (hcb : Listens s.client)
    (hone : p.len = p.tot_len) (hwnd : p.bytes.length ≤ TCP_WND)
    (hoff : s.in_offset.toNat < p.bytes.length) (hused : used = m.fixed)
    (hpart : part p s = m.packet.body.take (least p s)) :
    (least p s < m.variable_ →
      ∃ c', parseRound p s = .ret (MQTT_CONNECT_DISCONNECTED, c')) ∧
    (m.variable_ ≤ least p s → ∃ s', parseRound p s = .next s' ∧
      Behind p s s' (.pub_cb m.topic (BitVec.ofNat 32 m.payload.length) ::
        payloadCalls ((part p s).drop m.variable_) (m.bytes.length = used + least p s))) := by
  obtain ⟨c₁, res, hr⟩ := h.receives hone hwnd hoff
  have hpub : c₁.pub_cb := by
    rw [show c₁.pub_cb = _ from congrArg Core.pub_cb hr.core]
    exact hcb.1
  have hdata : c₁.data_cb := by
    rw [show c₁.data_cb = _ from congrArg Core.data_cb hr.core]
    exact hcb.2
  have hfirst : firstPart m.qos s.fixed_hdr_len (cpyLen p s)
      (m.packet.body.take (cpyLen p s).toNat) = _ := h.fits.firstPart h.fixed
  rw [hr.cpy, ← hpart, ← hr.qos] at hfirst
  refine ⟨fun hshort => ?_, fun hlong => ?_⟩
  · rw [if_pos hshort] at hfirst
    have hrefused := publish_short hr.type hr.space (s.msg_rem_len - (cpyLen p s).setWidth 32)
      (hr.first.mpr hused) hfirst
    obtain rfl := Option.some.inj (hrefused.symm.trans hr.received)
    exact ⟨c₁, hr.refused (show MQTT_CONNECT_DISCONNECTED ≠ MQTT_CONNECT_ACCEPTED by decide)⟩
  · rw [if_neg (Nat.not_lt.mpr hlong)] at hfirst
    obtain ⟨c', hc', heffect⟩ := publish_first hr.type hr.space
      (s.msg_rem_len - (cpyLen p s).setWidth 32) hr.length (hr.first.mpr hused) hfirst
    obtain rfl := Option.some.inj (hc'.symm.trans hr.received)
    have htotal : s.msg_rem_len - (cpyLen p s).setWidth 32 +
        (cpyLen p s - BitVec.ofNat 16 m.variable_).setWidth 32 =
          BitVec.ofNat 32 m.payload.length := by
      have hcpy := hr.cpy
      have hlt := (cpyLen p s).isLt
      have hsize := h.numbers.2.2.1
      have hbody := m.length_body
      have hlen := m.length_bytes
      have hleast := (least_le p s).2.1
      rw [h.numbers.1] at hleast
      have hdata : ((cpyLen p s - BitVec.ofNat 16 m.variable_).setWidth 32).toNat =
          least p s - m.variable_ := by
        rw [BitVec.toNat_setWidth, BitVec.toNat_sub, BitVec.toNat_ofNat]
        omega
      apply BitVec.eq_of_toNat_eq
      rw [BitVec.toNat_add, hr.rest, hdata, BitVec.toNat_ofNat]
      omega
    rw [dataCalls_eq hdata, if_pos hpub, htotal] at heffect
    simp only [hr.last] at heffect
    exact hr.accepted _ rfl heffect

end Message

/-! ## the stream of messages -/

/-- Byte `pos` of the stream: the message it is in, with those behind it, and where there. -/
def seek : Nat → List Message → Nat × List Message
  | pos, [] => (pos, [])
  | pos, m :: ms =>
      if m.bytes.length ≤ pos then seek (pos - m.bytes.length) ms else (pos, m :: ms)

/-- A segment that ends at `pos` splits a variable header. -/
def Splits (pos : Nat) (ms : List Message) : Prop :=
  match seek pos ms with
  | (used, m :: _) => m.fixed < used ∧ used < m.fixed + m.variable_
  | (_, []) => False

/-- What the application makes of the calls: topic, announced length and bytes of the message
that it is being given, and those that it has been given. -/
structure Inbox where
  current : Option (List Byte × BitVec 32 × List Byte)
  done : List (List Byte × BitVec 32 × List Byte)

def Inbox.take (b : Inbox) : Call κ → Inbox
  | .pub_cb topic tot_len => { b with current := some (topic, tot_len, []) }
  | .data_cb data last =>
      match b.current with
      | some (topic, tot_len, got) =>
          if last then ⟨none, b.done ++ [(topic, tot_len, got ++ data)]⟩
          else { b with current := some (topic, tot_len, got ++ data) }
      | none => b
  | _ => b

/-- What it is to have been told when `pos` bytes of the stream are there: every message
that is there whole, and of the next one what is there of its payload. -/
def told (done : List (List Byte × BitVec 32 × List Byte)) : Nat → List Message → Inbox
  | _, [] => ⟨none, done⟩
  | pos, m :: ms =>
      if m.bytes.length ≤ pos then told (done ++ [m.delivered]) (pos - m.bytes.length) ms
      else
        ⟨if m.fixed + m.variable_ ≤ pos then
            some (m.topic, BitVec.ofNat 32 m.payload.length,
              m.payload.take (pos - (m.fixed + m.variable_)))
          else none, done⟩

theorem Message.length_pos (m : Message) : 0 < m.bytes.length := by
  have := m.headers_le
  omega

theorem seek_zero (ms : List Message) : seek 0 ms = (0, ms) := by
  cases ms with
  | nil => rfl
  | cons m ms => rw [seek, if_neg (by have := m.length_pos; omega)]

theorem seek_of_lt {m : Message} {pos : Nat} (h : pos < m.bytes.length) (ms : List Message) :
    seek pos (m :: ms) = (pos, m :: ms) := by
  rw [seek, if_neg (by omega)]

theorem seek_add (pos n : Nat) (ms : List Message) :
    seek ((seek pos ms).1 + n) (seek pos ms).2 = seek (pos + n) ms := by
  induction ms generalizing pos with
  | nil => rfl
  | cons m ms ih =>
      by_cases h : m.bytes.length ≤ pos
      · rw [seek, if_pos h, ih, seek, if_pos (by omega), Nat.sub_add_comm h]
      · rw [seek_of_lt (by omega)]

theorem drop_seek (pos : Nat) (ms : List Message) :
    (ms.flatMap Message.bytes).drop pos =
      ((seek pos ms).2.flatMap Message.bytes).drop (seek pos ms).1 := by
  induction ms generalizing pos with
  | nil => rfl
  | cons m ms ih =>
      by_cases h : m.bytes.length ≤ pos
      · rw [seek, if_pos h, ← ih, List.flatMap_cons, List.drop_append, List.drop_of_length_le h,
          List.nil_append]
      · rw [seek_of_lt (by omega)]

theorem mem_of_mem_seek {pos : Nat} {ms : List Message} {m : Message}
    (h : m ∈ (seek pos ms).2) : m ∈ ms := by
  induction ms generalizing pos with
  | nil => exact h
  | cons m' ms ih =>
      by_cases hle : m'.bytes.length ≤ pos
      · rw [seek, if_pos hle] at h
        exact List.mem_cons_of_mem _ (ih h)
      · rwa [seek_of_lt (by omega)] at h

theorem told_zero (done : List (List Byte × BitVec 32 × List Byte)) (ms : List Message) :
    told done 0 ms = ⟨none, done⟩ := by
  cases ms with
  | nil => rfl
  | cons m ms =>
      have := m.headers_le
      rw [told, if_neg (by omega), if_neg (by omega)]

theorem told_seek (done : List (List Byte × BitVec 32 × List Byte)) (pos n : Nat)
    (ms : List Message) : ∃ done', told done pos ms = told done' (seek pos ms).1 (seek pos ms).2 ∧
      told done (pos + n) ms = told done' ((seek pos ms).1 + n) (seek pos ms).2 := by
  induction ms generalizing done pos with
  | nil => exact ⟨done, rfl, rfl⟩
  | cons m ms ih =>
      by_cases h : m.bytes.length ≤ pos
      · obtain ⟨done', h₁, h₂⟩ := ih (done ++ [m.delivered]) (pos - m.bytes.length)
        refine ⟨done', ?_, ?_⟩
        · rw [seek, if_pos h, ← h₁, told, if_pos h]
        · rw [seek, if_pos h, ← h₂, told, if_pos (by omega), Nat.sub_add_comm h]
      · exact ⟨done, by rw [seek_of_lt (by omega)], by rw [seek_of_lt (by omega)]⟩

/-- A part of the payload, as the application is told of it. -/
theorem take_payloadCalls {m : Message} (ms : List Message)
    (done : List (List Byte × BitVec 32 × List Byte)) {from_ n : Nat}
    (hle : from_ + n ≤ m.payload.length) (data : List Byte)
    (hdata : data = (m.payload.drop from_).take n) :
    (payloadCalls data (m.bytes.length = m.fixed + m.variable_ + from_ + n) : List (Call κ)).foldl
        Inbox.take ⟨some (m.topic, BitVec.ofNat 32 m.payload.length, m.payload.take from_), done⟩ =
      told done (m.fixed + m.variable_ + from_ + n) (m :: ms) := by
  have hlen := m.length_bytes
  have hbody := m.length_body
  have happend : m.payload.take from_ ++ data = m.payload.take (from_ + n) := by
    rw [hdata, ← List.take_add]
  by_cases hlast : m.bytes.length = m.fixed + m.variable_ + from_ + n
  · rw [told, if_pos (by omega), ← hlast, Nat.sub_self, told_zero]
    have hall : m.payload.take (from_ + n) = m.payload := List.take_of_length_le (by omega)
    simp [payloadCalls, Inbox.take, happend, hall, Message.delivered]
  · rw [told, if_neg (by omega), if_pos (by omega)]
    have hsub : m.fixed + m.variable_ + from_ + n - (m.fixed + m.variable_) = from_ + n := by omega
    by_cases hnil : data = []
    · rw [hnil, List.append_nil] at happend
      simp [payloadCalls, hnil, hlast, hsub, happend]
    · simp [payloadCalls, hnil, hlast, hsub, happend, Inbox.take]

/-! ## one segment -/

/-- Where the client is in the messages. -/
def Between (c : Client κ) (used : Nat) : List Message → Prop
  | [] => c.msg_idx = 0
  | m :: _ => m.Begun c used

/-- Where the loop is: at a fixed header, or behind it. -/
inductive Place (s : Parse κ) (used : Nat) : List Message → Prop
  | header {ms : List Message} (hs : AtHeader s) (between : Between s.client used ms) :
      Place s used ms
  | body {m : Message} {ms : List Message} (h : m.InBody s used) : Place s used (m :: ms)

/-- A part of the way through the segment. -/
structure Advances (p : Chain) (s : Parse κ) (used : Nat) (ms : List Message) (s' : Parse κ)
    (calls : List (Call κ)) (k : Nat) : Prop where
  reaches : Machine.Reaches (parseRound p) s s'
  effect : Effect s.client s'.client calls
  offset : s'.in_offset.toNat = s.in_offset.toNat + k
  within : s.in_offset.toNat + k ≤ p.bytes.length
  told : ∀ done, calls.foldl Inbox.take (told done used ms) = Mqtt.told done (used + k) ms
  place : Place s' (seek (used + k) ms).1 (seek (used + k) ms).2

theorem Place.between {ms : List Message} {used : Nat} (h : Place s used ms) :
    Between s.client used ms := by
  cases h with
  | header hs between => exact between
  | body h => exact h.begun

theorem Between.start (hidx : c.msg_idx = 0) (ms : List Message) : Between c 0 ms := by
  cases ms with
  | nil => exact hidx
  | cons m ms =>
      exact ⟨by rw [hidx]; rfl, fun i hi => absurd hi (Nat.not_lt_zero i), Or.inl (Nat.zero_le _),
        m.length_pos⟩

/-- Between two segments no variable header is split. -/
theorem Between.not_splits {ms : List Message} {used : Nat} (h : Between c used ms) :
    seek used ms = (used, ms) ∧ ¬Splits used ms := by
  cases ms with
  | nil => exact ⟨rfl, id⟩
  | cons m ms =>
      have hseek := seek_of_lt h.rest ms
      have huncut := h.uncut
      unfold Splits
      rw [hseek]
      refine ⟨rfl, ?_⟩
      dsimp only
      omega

/-- One part of a message. -/
theorem Message.InBody.advance {m : Message} {used : Nat} (h : m.InBody s used)
    (ms : List Message) (hcb : Listens s.client) (hone : p.len = p.tot_len)
    (hwnd : p.bytes.length ≤ TCP_WND) (hoff : s.in_offset.toNat < p.bytes.length)
    {future : List Byte} (hbytes : p.bytes.drop s.in_offset.toNat ++ future =
      ((m :: ms).flatMap Message.bytes).drop used) :
    (Splits (used + (p.bytes.length - s.in_offset.toNat)) (m :: ms) ∧
      ∃ c', Machine.Returns (parseRound p) s (MQTT_CONNECT_DISCONNECTED, c')) ∨
    ∃ s' calls k, 0 < k ∧ Advances p s used (m :: ms) s' calls k := by
  rw [List.flatMap_cons] at hbytes
  have hpart := h.part_eq hbytes
  have hleast := least_le p s
  have hpos := h.toAtBody.least_pos hoff
  obtain ⟨hrem, hfive, hsize, -⟩ := h.numbers
  have hrest := h.begun.rest
  have hlen := m.length_bytes
  have hbody := m.length_body
  have hheaders := h.fits.headers
  have hvariable := m.headers_le
  have hfixed := h.fixed
  unfold MQTT_VAR_HEADER_BUFFER_LEN at hheaders hleast
  have hplace (s' : Parse κ) (calls : List (Call κ)) (hb : Behind p s s' calls)
      (huncut : m.fixed + m.variable_ ≤ used + least p s) :
      Place s' (seek (used + least p s) (m :: ms)).1 (seek (used + least p s) (m :: ms)).2 := by
    by_cases hdone : s.msg_rem_len.toNat = least p s
    · obtain ⟨hheader, -, hidx⟩ := hb.done hdone
      rw [seek, if_pos (by omega), show used + least p s - m.bytes.length = 0 by omega, seek_zero]
      exact .header hheader (Between.start hidx ms)
    · obtain ⟨hatBody, hsame, hidx, hbuffer⟩ := hb.more hdone
      rw [seek_of_lt (by omega)]
      refine .body ⟨hatBody, h.fits, by rw [hsame, hfixed], ⟨?_, ?_, Or.inr huncut, by omega⟩,
        by have := h.behind; omega⟩
      · rw [hidx, h.begun.idx]
      · intro i _ hi
        have := h.behind
        rw [hbuffer i (by omega), h.begun.buffer i (by omega) hi]
  by_cases hused : used = m.fixed
  · have hfirst := h.first hcb hone hwnd hoff hused (by rw [hpart, hused, m.drop_fixed])
    by_cases hshort : least p s < m.variable_
    · obtain ⟨c', hret⟩ := hfirst.1 hshort
      refine Or.inl ⟨?_, c', Machine.Returns.of_step hret⟩
      have hall : least p s = p.bytes.length - s.in_offset.toNat := by
        unfold least MQTT_VAR_HEADER_BUFFER_LEN at *
        omega
      unfold Splits
      rw [seek_of_lt (by omega)]
      dsimp only
      omega
    · obtain ⟨s', hround, hb⟩ := hfirst.2 (by omega)
      refine Or.inr ⟨s', _, least p s, hpos, Machine.Reaches.of_step hround, hb.effect, hb.offset,
        by omega, fun done => ?_, hplace s' _ hb (by omega)⟩
      have hdata : (part p s).drop m.variable_ =
          (m.payload.drop 0).take (least p s - m.variable_) := by
        rw [hpart, hused, m.drop_fixed, List.drop_take, ← m.drop_fixed, List.drop_drop,
          m.drop_headers, List.drop_zero]
      have hend : used + least p s =
          m.fixed + m.variable_ + 0 + (least p s - m.variable_) := by omega
      have htold := take_payloadCalls (κ := κ) ms done (by omega) _ hdata
      rw [hend, ← htold, Mqtt.told, if_neg (by omega), if_neg (by omega)]
      rfl
  · have huncut := h.begun.uncut
    have hbehind := h.behind
    obtain ⟨s', hround, hb⟩ := h.later hcb.2 hone hwnd hoff (by omega)
    refine Or.inr ⟨s', _, least p s, hpos, Machine.Reaches.of_step hround, hb.effect, hb.offset,
      by omega, fun done => ?_, hplace s' _ hb (by omega)⟩
    have hdata : part p s =
        (m.payload.drop (used - (m.fixed + m.variable_))).take (least p s) := by
      rw [hpart, ← m.drop_headers, List.drop_drop]
      congr 2
      omega
    have hend : used + least p s =
        m.fixed + m.variable_ + (used - (m.fixed + m.variable_)) + least p s := by omega
    have htold := take_payloadCalls (κ := κ) ms done (by omega) _ hdata
    rw [hend, ← htold, Mqtt.told, if_neg (by omega), if_pos (by omega)]

/-- Up to the end of the fixed header, or of the segment. -/
theorem Between.advance {m : Message} {ms : List Message} {used : Nat}
    (h : Between s.client used (m :: ms)) (hs : AtHeader s) (hm : m.Fits)
    (hoff : s.in_offset.toNat < p.bytes.length) {future : List Byte}
    (hbytes : p.bytes.drop s.in_offset.toNat ++ future =
      ((m :: ms).flatMap Message.bytes).drop used) :
    ∃ s' k, Advances p s used (m :: ms) s' ([] : List (Call κ)) k ∧
      ((0 < k ∧ s.in_offset.toNat + k = p.bytes.length) ∨ m.InBody s' (used + k)) := by
  obtain ⟨hidx, hbuffer, huncut, hrest⟩ := h
  obtain ⟨hheader, hlen⟩ := hm.header
  have hsize := m.length_bytes
  have hvariable := m.headers_le
  obtain ⟨t, ht⟩ : ∃ t, t = min m.fixed (used + (p.bytes.length - s.in_offset.toNat)) := ⟨_, rfl⟩
  have hne : remLen m.hdr (m.fixed - 1) ≠ 0 := fun hzero => by
    rw [hzero] at hlen
    simp at hlen
    omega
  have hfixed : s.fixed_hdr_len.toNat ≤ t := by
    have hbehind := hs.behind
    rcases Nat.lt_or_ge used m.fixed with hlt | hge
    · omega
    · -- the whole fixed header is in the buffer, and not all of it has been read
      have hold := hheader.congr fun i hi => hbuffer i (by omega) hi
      have := hold.not_open hs.front
      omega
  have hreads : Reads p s m.hdr t := by
    refine ⟨hfixed, fun i h₁ h₂ => hbuffer i (by omega) (by omega), fun _ => hoff, by omega,
      fun i h₁ h₂ => ?_⟩
    have hget := congrArg (fun bs => bs[i - used]?) hbytes
    rw [hidx] at h₁ ⊢
    rw [List.flatMap_cons, List.getElem?_append_left (by rw [List.length_drop]; omega),
      List.getElem?_drop, List.getElem?_drop, Nat.add_sub_cancel' h₁,
      List.getElem?_append_left (by omega)] at hget
    rw [hget]
    unfold Message.hdr
    rw [List.getD_eq_getElem?_getD, List.getElem?_eq_getElem (by omega), Option.getD_some]
  obtain ⟨s', hreach, hto⟩ := header_run hs hreads hheader hne (by omega)
  have hidx' := hto.idx
  have hoffset := hto.offset
  rw [hidx] at hidx' hoffset
  have hseek : seek (used + (t - used)) (m :: ms) = (used + (t - used), m :: ms) :=
    seek_of_lt (by omega) ms
  have hbegun : m.Begun s'.client (used + (t - used)) :=
    ⟨by omega, fun i h₁ h₂ => hto.buffer i (by omega), by omega, by omega⟩
  have hbody (hwhole : t = m.fixed) : m.InBody s' (used + (t - used)) := by
    refine ⟨hto.parsing.atBody ?_, hm, by rw [hto.fixed, hwhole], hbegun, by omega⟩
    rw [hto.fixed, hwhole]
    exact hheader.congr fun i hi => hto.buffer i (by omega)
  refine ⟨s', t - used, ⟨hreach, hto.client, hoffset, by omega, fun done => ?_, ?_⟩, ?_⟩
  · rcases Nat.lt_or_ge used m.fixed with hlt | hge
    · rw [List.foldl_nil, Mqtt.told, Mqtt.told, if_neg (by omega), if_neg (by omega),
        if_neg (by omega), if_neg (by omega)]
    · rw [List.foldl_nil, show used + (t - used) = used by omega]
  · rw [hseek]
    by_cases hwhole : t = m.fixed
    · exact .body (hbody hwhole)
    · refine .header (hto.parsing.resolve_right fun hat => ?_) hbegun
      have hread := hat.header.congr fun i hi => (hto.buffer i (by rwa [hto.fixed] at hi)).symm
      rw [hto.fixed] at hread
      exact hwhole (hread.unique hheader)
  · by_cases hwhole : t = m.fixed
    · exact Or.inr (hbody hwhole)
    · exact Or.inl ⟨by omega, by omega⟩

/-- How a call ends, `n` bytes on: the connection is closed if they split a variable header,
and else the application has been told what is there. -/
structure Ends (p : Chain) (s : Parse κ) (used : Nat) (ms : List Message) (n : Nat) : Prop where
  whole : ¬Splits (used + n) ms → ∃ c' calls,
    Machine.Returns (parseRound p) s (MQTT_CONNECT_ACCEPTED, c') ∧ Effect s.client c' calls ∧
      (∀ done, calls.foldl Inbox.take (told done used ms) = told done (used + n) ms) ∧
      Between c' (seek (used + n) ms).1 (seek (used + n) ms).2
  split : Splits (used + n) ms → ∃ c',
    Machine.Returns (parseRound p) s (MQTT_CONNECT_DISCONNECTED, c')

theorem splits_seek (pos n : Nat) (ms : List Message) :
    Splits ((seek pos ms).1 + n) (seek pos ms).2 ↔ Splits (pos + n) ms := by
  unfold Splits
  rw [seek_add]

theorem Advances.ends {ms : List Message} {used k n : Nat} {calls : List (Call κ)}
    (h : Advances p s used ms s' calls k)
    (h' : Ends p s' (seek (used + k) ms).1 (seek (used + k) ms).2 n) :
    Ends p s used ms (k + n) := by
  have hsplits := splits_seek (used + k) n ms
  rw [Nat.add_assoc] at hsplits
  refine ⟨fun hwhole => ?_, fun hsplit => ?_⟩
  · obtain ⟨c', calls', hret, heffect, htold, hbetween⟩ := h'.whole (mt hsplits.mp hwhole)
    rw [seek_add, Nat.add_assoc] at hbetween
    refine ⟨c', calls ++ calls', h.reaches.returns hret, h.effect.trans heffect, fun done => ?_,
      hbetween⟩
    obtain ⟨done', h₁, h₂⟩ := told_seek done (used + k) n ms
    rw [List.foldl_append, h.told, h₁, htold, ← h₂, Nat.add_assoc]
  · obtain ⟨c', hret⟩ := h'.split (hsplits.mpr hsplit)
    exact ⟨c', h.reaches.returns hret⟩

/-- Some bytes on, unless the segment splits a variable header. -/
theorem Place.advance {ms : List Message} {used : Nat} (h : Place s used ms)
    (hms : ∀ m ∈ ms, m.Fits) (hcb : Listens s.client) (hone : p.len = p.tot_len)
    (hwnd : p.bytes.length ≤ TCP_WND) (hoff : s.in_offset.toNat < p.bytes.length)
    {future : List Byte}
    (hbytes : p.bytes.drop s.in_offset.toNat ++ future = (ms.flatMap Message.bytes).drop used) :
    (Splits (used + (p.bytes.length - s.in_offset.toNat)) ms ∧
      ∃ c', Machine.Returns (parseRound p) s (MQTT_CONNECT_DISCONNECTED, c')) ∨
    ∃ s' calls k, 0 < k ∧ Advances p s used ms s' calls k := by
  cases h with
  | body hbody => exact hbody.advance _ hcb hone hwnd hoff hbytes
  | header hs between =>
      cases ms with
      | nil =>
          -- no message is left, but bytes are
          have hnil := congrArg List.length hbytes
          simp at hnil
          omega
      | cons m ms =>
          obtain ⟨s₁, k, hadv, hend⟩ :=
            between.advance hs (hms m (List.mem_cons_self ..)) hoff hbytes
          by_cases hpos : 0 < k
          · exact Or.inr ⟨s₁, [], k, hpos, hadv⟩
          -- the fixed header was in the buffer
          obtain rfl : k = 0 := by omega
          have hbody : m.InBody s₁ used := hend.resolve_left fun h => hpos h.1
          have hoffset : s₁.in_offset.toNat = s.in_offset.toNat := hadv.offset
          rw [← hoffset] at hoff hbytes ⊢
          rcases hbody.advance ms (hadv.effect.listens hcb) hone hwnd hoff hbytes with
            ⟨hsplit, c', hret⟩ | ⟨s₂, calls, k, hk, hadv₂⟩
          · exact Or.inl ⟨hsplit, c', hadv.reaches.returns hret⟩
          · refine Or.inr ⟨s₂, calls, k, hk, hadv.reaches.trans hadv₂.reaches,
              hadv.effect.trans hadv₂.effect, by rw [hadv₂.offset, hoffset],
              by rw [← hoffset]; exact hadv₂.within, hadv₂.told, hadv₂.place⟩

theorem Place.ends {ms : List Message} {used : Nat} (h : Place s used ms)
    (hms : ∀ m ∈ ms, m.Fits) (hcb : Listens s.client) (hone : p.len = p.tot_len)
    (hwnd : p.bytes.length ≤ TCP_WND) (hoff : s.in_offset.toNat ≤ p.bytes.length)
    {future : List Byte}
    (hbytes : p.bytes.drop s.in_offset.toNat ++ future = (ms.flatMap Message.bytes).drop used) :
    Ends p s used ms (p.bytes.length - s.in_offset.toNat) := by
  induction hn : p.bytes.length - s.in_offset.toNat using Nat.strongRecOn generalizing s used ms with
  | ind n ih =>
      rcases Nat.lt_or_eq_of_le hoff with hlt | hend
      · rcases h.advance hms hcb hone hwnd hlt hbytes with
          ⟨hsplit, c', hret⟩ | ⟨s', calls, k, hpos, hadv⟩
        · rw [hn] at hsplit
          exact ⟨fun hwhole => absurd hsplit hwhole, fun _ => ⟨c', hret⟩⟩
        have hle := hadv.within
        have hoffset := hadv.offset
        have hdrop := congrArg (List.drop k) hbytes
        rw [List.drop_append_of_le_length (by rw [List.length_drop]; omega), List.drop_drop,
          List.drop_drop, ← hoffset, drop_seek] at hdrop
        have hrest := ih (n - k) (by omega) hadv.place (fun m hm => hms m (mem_of_mem_seek hm))
          (hadv.effect.listens hcb) (by omega) hdrop (by omega)
        have hends := hadv.ends hrest
        rwa [Nat.add_sub_cancel' (by omega)] at hends
      · have hzero : n = 0 := by omega
        subst hzero
        obtain ⟨hseek, hsplits⟩ := h.between.not_splits
        have hret : parseRound p s = .ret (MQTT_CONNECT_ACCEPTED, s.client) := by
          rw [parseRound_eq, if_neg]
          rw [BitVec.lt_def, Chain.toNat_tot_len]
          omega
        refine ⟨fun _ => ⟨s.client, [], Machine.Returns.of_step hret, Effect.refl _,
          fun _ => rfl, ?_⟩, fun hsplit => absurd hsplit hsplits⟩
        rw [Nat.add_zero, hseek]
        exact h.between

/-! ## any segments -/

/-- The client takes one segment after the other. -/
inductive Fed : Client κ → List Chain → Client κ → Prop
  | nil (c : Client κ) : Fed c [] c
  | cons {c c' : Client κ} {p : Chain} {ps : List Chain} {res : Status × Client κ}
      (hres : mqtt_parse_incoming p c res) (haccepted : res.1 = MQTT_CONNECT_ACCEPTED)
      (h : Fed (afterParse res) ps c') : Fed c (p :: ps) c'

theorem afterParse_accepted (c : Client κ) :
    (afterParse (MQTT_CONNECT_ACCEPTED, c)).parser = c.parser ∧
      (afterParse (MQTT_CONNECT_ACCEPTED, c)).calls = c.calls ∧
      (Listens c → Listens (afterParse (MQTT_CONNECT_ACCEPTED, c))) := by
  unfold afterParse
  dsimp only
  rw [if_neg (not_not.mpr rfl)]
  split
  · exact ⟨rfl, rfl, id⟩
  · exact ⟨rfl, rfl, id⟩

theorem Between.congr {ms : List Message} {used : Nat} (h : Between c used ms)
    (hparser : c'.parser = c.parser) : Between c' used ms := by
  obtain ⟨hbuffer, hidx⟩ := Prod.mk.inj hparser
  cases ms with
  | nil => exact hidx.trans h
  | cons m ms =>
      obtain ⟨h₁, h₂, h₃, h₄⟩ := h
      exact ⟨by rw [hidx, h₁], fun i hi hlt => by rw [hbuffer, h₂ i hi hlt], h₃, h₄⟩

/-- A client between two segments. -/
structure Ready (c : Client κ) (used : Nat) (ms : List Message) : Prop where
  resumes : Resumes c
  between : Between c used ms
  listens : Listens c
  fits : ∀ m ∈ ms, m.Fits

/-- One segment. -/
theorem Ready.segment {ms : List Message} {used : Nat} (h : Ready c used ms)
    (hone : p.len = p.tot_len) (hwnd : p.bytes.length ≤ TCP_WND) {future : List Byte}
    (hbytes : p.bytes ++ future = (ms.flatMap Message.bytes).drop used) :
    (¬Splits (used + p.bytes.length) ms → ∃ c' calls,
      mqtt_parse_incoming p c (MQTT_CONNECT_ACCEPTED, c') ∧
        Ready (afterParse (MQTT_CONNECT_ACCEPTED, c')) (seek (used + p.bytes.length) ms).1
          (seek (used + p.bytes.length) ms).2 ∧
        NewCalls c (afterParse (MQTT_CONNECT_ACCEPTED, c')) calls ∧
        ∀ done, calls.foldl Inbox.take (told done used ms) = told done (used + p.bytes.length) ms) ∧
    (Splits (used + p.bytes.length) ms → ∃ c',
      mqtt_parse_incoming p c (MQTT_CONNECT_DISCONNECTED, c')) := by
  have hplace : Place ({ client := c } : Parse κ) used ms :=
    .header (AtHeader.start h.resumes) h.between
  have hends : Ends p { client := c } used ms (p.bytes.length - 0) :=
    hplace.ends h.fits h.listens hone hwnd (Nat.zero_le _) hbytes
  rw [Nat.sub_zero] at hends
  refine ⟨fun hwhole => ?_, hends.split⟩
  obtain ⟨c', calls, hret, heffect, htold, hbetween⟩ := hends.whole hwhole
  obtain ⟨hparser, hcalls, hlistens⟩ := afterParse_accepted c'
  have hresumes : Resumes c' := h.resumes.of_returns hwnd hret rfl
  refine ⟨c', calls, hret, ⟨hresumes.congr hparser, hbetween.congr hparser,
    hlistens (heffect.listens h.listens), fun m hm => h.fits m (mem_of_mem_seek hm)⟩, ?_, htold⟩
  unfold NewCalls
  rw [hcalls]
  exact heffect.calls

/-- The segments behind the first one. -/
theorem drop_segment {ms : List Message} {used : Nat} {ps : List Chain}
    (hbytes : (p :: ps).flatMap Chain.bytes = (ms.flatMap Message.bytes).drop used) :
    ps.flatMap Chain.bytes = ((seek (used + p.bytes.length) ms).2.flatMap Message.bytes).drop
      (seek (used + p.bytes.length) ms).1 := by
  rw [← drop_seek, ← List.drop_drop, ← hbytes, List.flatMap_cons, List.drop_left]

theorem splits_segment {ms : List Message} {used : Nat} {ps : List Chain} (n : Nat) :
    Splits ((seek (used + p.bytes.length) ms).1 + ((ps.take n).flatMap Chain.bytes).length)
        (seek (used + p.bytes.length) ms).2 ↔
      Splits (used + (((p :: ps).take (n + 1)).flatMap Chain.bytes).length) ms := by
  rw [splits_seek, List.take_succ_cons, List.flatMap_cons, List.length_append, Nat.add_assoc]

theorem Ready.not_splits {ms : List Message} {used : Nat} (h : Ready c used ms) {ps : List Chain}
    (hone : ∀ p ∈ ps, p.len = p.tot_len ∧ p.bytes.length ≤ TCP_WND)
    (hbytes : ps.flatMap Chain.bytes = (ms.flatMap Message.bytes).drop used) (hfed : Fed c ps c')
    (n : Nat) : ¬Splits (used + ((ps.take n).flatMap Chain.bytes).length) ms := by
  have hstart := h.between.not_splits.2
  induction hfed generalizing used ms n with
  | nil c => simpa using hstart
  | @cons c c' p ps res hres haccepted hfed ih =>
      cases n with
      | zero => simpa using hstart
      | succ n =>
          obtain ⟨hcontiguous, hwnd⟩ := hone p (List.mem_cons_self ..)
          have hsegment := h.segment hcontiguous hwnd hbytes
          by_cases hsplit : Splits (used + p.bytes.length) ms
          · obtain ⟨c₁, hret⟩ := hsegment.2 hsplit
            rw [hres.unique hret] at haccepted
            exact absurd haccepted
              (show MQTT_CONNECT_DISCONNECTED ≠ MQTT_CONNECT_ACCEPTED by decide)
          · obtain ⟨c₁, calls, hret, hready, -⟩ := hsegment.1 hsplit
            obtain rfl := hres.unique hret
            rw [← splits_segment]
            exact ih hready (fun q hq => hone q (List.mem_cons_of_mem _ hq)) (drop_segment hbytes) n
              hready.between.not_splits.2

/-- A message of seven bytes. -/
def hi : Message := ⟨[0x74], [0x68, 0x69], 0, false, 0⟩

end Enc28j60.Mqtt
