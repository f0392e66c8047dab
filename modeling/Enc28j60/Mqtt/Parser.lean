import Enc28j60.Mqtt.Runs

/-!
# Enc28j60.Mqtt.Parser

The loop of `mqtt_parse_incoming` on any bytes, in any pbufs.

`Parsing` is its invariant: the fixed header is being read, and all of its length
bytes so far say that there is another one; or it is complete, and some of the message
is left.  `Resumes` is what a call leaves to the next one, which reads the header again
from `rx_buffer`.

With it each round takes something off a measure (`parseRound_spec`), but for one that
changes nothing: the loop hangs exactly when it comes to such a round
(`Resumes.diverges_iff`), which needs a second pbuf.  The one step that the language
leaves undefined is the shift for a sixth length byte (`Resumes.undefined_iff`).
-/

namespace Enc28j60.Mqtt

open App (LwipErr ClientState Status MQTT_CONNECT_ACCEPTED MQTT_CONNECT_DISCONNECTED)

variable {κ : Type} {c : Client κ} {p : Chain} {s s' : Parse κ}

/-! ## the fixed header in the buffer -/

/-- What the first `k` length bytes make of `msg_rem_len`. -/
def remLen (rx : Nat → Byte) : Nat → BitVec 32
  | 0 => 0
  | k + 1 => remLen rx k ||| ((rx (k + 1) &&& 0x7f).setWidth 32 <<< (k * 7))

/-- The length bytes before `rx n` say that there is another one. -/
def Open (rx : Nat → Byte) (n : Nat) : Prop := ∀ i, 1 ≤ i → i < n → rx i &&& 0x80 ≠ 0

/-- A fixed header of `h` bytes. -/
structure Header (rx : Nat → Byte) (h : Nat) : Prop where
  least : 2 ≤ h
  most : h ≤ 6
  front : Open rx (h - 1)
  last : rx (h - 1) &&& 0x80 = 0

variable {rx rx' : Nat → Byte} {n h h' : Nat}

theorem remLen_congr {k : Nat} (hrx : ∀ i, 1 ≤ i → i ≤ k → rx' i = rx i) :
    remLen rx' k = remLen rx k := by
  induction k with
  | zero => rfl
  | succ k ih =>
      rw [remLen, remLen, ih fun i h₁ h₂ => hrx i h₁ (by omega), hrx (k + 1) (by omega) le_rfl]

/-- Four length bytes are read as the number they encode. -/
theorem toNat_remLen {k : Nat} (hk : k ≤ 4) :
    (remLen rx k).toNat = Base128.value (Mem.load rx 1 k) := by
  induction k with
  | zero => rfl
  | succ k ih =>
      have hvalue := Base128.value_lt (Mem.load rx 1 k)
      rw [Mem.length_load, show (128 : Nat) = 2 ^ 7 from rfl, ← Nat.pow_mul] at hvalue
      have hbyte : (rx (k + 1) &&& 0x7f).toNat = (rx (k + 1)).toNat % 128 := by
        rw [BitVec.toNat_and]
        exact Nat.and_two_pow_sub_one_eq_mod _ 7
      have hlt := Nat.mod_lt (rx (k + 1)).toNat (show 0 < 128 by decide)
      have hshift : ((rx (k + 1) &&& 0x7f).setWidth 32 <<< (k * 7)).toNat =
          2 ^ (7 * k) * ((rx (k + 1)).toNat % 128) := by
        have hfit : (rx (k + 1)).toNat % 128 * 2 ^ (7 * k) < 2 ^ 32 := by
          calc (rx (k + 1)).toNat % 128 * 2 ^ (7 * k) < 2 ^ 7 * 2 ^ (7 * k) :=
              Nat.mul_lt_mul_of_pos_right hlt (Nat.two_pow_pos _)
            _ = 2 ^ (7 * (k + 1)) := by rw [← Nat.pow_add, Nat.mul_succ, Nat.add_comm]
            _ ≤ 2 ^ 32 := Nat.pow_le_pow_right (by decide) (by omega)
        rw [BitVec.toNat_shiftLeft, BitVec.toNat_setWidth, hbyte, Nat.shiftLeft_eq,
          Nat.mod_eq_of_lt (show (rx (k + 1)).toNat % 128 < 2 ^ 32 by omega), Nat.mul_comm k 7,
          Nat.mod_eq_of_lt hfit, Nat.mul_comm]
      rw [remLen, BitVec.toNat_or, ih (by omega), hshift, Mem.load_add, Nat.or_comm,
        ← Nat.two_pow_add_eq_or_of_lt hvalue, Nat.add_comm]
      rw [show Mem.load rx (1 + k) 1 = [rx (k + 1)] by simp [Mem.load, Nat.add_comm],
        Base128.value_append_singleton, Mem.length_load, show (128 : Nat) = 2 ^ 7 from rfl,
        ← Nat.pow_mul, Nat.mul_comm (2 ^ (7 * k))]
theorem remLen_lt (rx : Nat → Byte) {k : Nat} (hk : k ≤ 4) : (remLen rx k).toNat < 2 ^ 28 := by
  have hlt := Base128.value_lt (Mem.load rx 1 k)
  rw [Mem.length_load] at hlt
  rw [toNat_remLen hk]
  calc Base128.value (Mem.load rx 1 k) < 128 ^ k := hlt
    _ ≤ 128 ^ 4 := Nat.pow_le_pow_right (by decide) hk
    _ = 2 ^ 28 := by decide

theorem Open.congr (ho : Open rx n) (hrx : ∀ i < n, rx' i = rx i) : Open rx' n :=
  fun i h₁ h₂ => by
    rw [hrx i h₂]
    exact ho i h₁ h₂

theorem Open.mono (ho : Open rx n) {m : Nat} (hm : m ≤ n) : Open rx m :=
  fun i h₁ h₂ => ho i h₁ (by omega)

theorem Header.congr (hh : Header rx h) (hrx : ∀ i < h, rx' i = rx i) : Header rx' h := by
  have hleast := hh.least
  refine ⟨hleast, hh.most, hh.front.congr fun i hi => hrx i (by omega), ?_⟩
  rw [hrx (h - 1) (by omega)]
  exact hh.last

/-- A header that is complete is not open. -/
theorem Header.not_open (hh : Header rx h) (ho : Open rx n) : n < h := by
  have hleast := hh.least
  by_contra hle
  exact ho (h - 1) (by omega) (by omega) hh.last

theorem Header.unique (hh : Header rx h) (hh' : Header rx h') : h = h' := by
  have h₁ := hh.not_open hh'.front
  have h₂ := hh'.not_open hh.front
  omega

/-! ## between two calls -/

/-- What the client keeps of a message that it has received a part of. -/
inductive Resumes (c : Client κ) : Prop
  | header (few : c.msg_idx.toNat ≤ 6) (front : Open c.rx_buffer c.msg_idx.toNat)
  | body (h : Nat) (header : Header c.rx_buffer h) (behind : h ≤ c.msg_idx.toNat)
      (len : remLen c.rx_buffer (h - 1) ≠ 0)
      (left : remLen c.rx_buffer (h - 1) + BitVec.ofNat 32 h - c.msg_idx ≠ 0)

theorem Resumes.start (hidx : c.msg_idx = 0) : Resumes c :=
  .header (by simp [hidx]) (by simp [Open, hidx])

/-- A header in the buffer that is complete is that of the message. -/
theorem Resumes.of_header (hc : Resumes c) (hh : Header c.rx_buffer h)
    (hle : h ≤ c.msg_idx.toNat) :
    remLen c.rx_buffer (h - 1) ≠ 0 ∧
      remLen c.rx_buffer (h - 1) + BitVec.ofNat 32 h - c.msg_idx ≠ 0 := by
  cases hc with
  | header few front =>
      have := hh.not_open front
      omega
  | body h' header behind len left =>
      rw [hh.unique header]
      exact ⟨len, left⟩

/-- The fixed header is being read, or is read again. -/
def reading (s : Parse κ) : Prop := s.fixed_hdr_len < 2 ∨ s.b &&& 0x80 ≠ 0

instance (s : Parse κ) : Decidable (reading s) := inferInstanceAs (Decidable (_ ∨ _))

/-- The loop at a byte of the fixed header. -/
structure AtHeader (s : Parse κ) : Prop where
  reading : reading s
  few : s.fixed_hdr_len.toNat ≤ 6
  behind : s.fixed_hdr_len.toNat ≤ s.client.msg_idx.toNat
  front : Open s.client.rx_buffer s.fixed_hdr_len.toNat
  len : s.msg_rem_len = remLen s.client.rx_buffer (s.fixed_hdr_len.toNat - 1)
  resumes : Resumes s.client

/-- The loop behind the fixed header. -/
structure AtBody (s : Parse κ) : Prop where
  done : ¬reading s
  header : Header s.client.rx_buffer s.fixed_hdr_len.toNat
  len : remLen s.client.rx_buffer (s.fixed_hdr_len.toNat - 1) ≠ 0
  left : s.msg_rem_len = remLen s.client.rx_buffer (s.fixed_hdr_len.toNat - 1) +
    s.fixed_hdr_len.setWidth 32 - s.client.msg_idx
  more : s.msg_rem_len ≠ 0

/-- The invariant of the loop. -/
def Parsing (s : Parse κ) : Prop := AtHeader s ∨ AtBody s

theorem AtHeader.start (hc : Resumes c) : AtHeader { client := c } :=
  ⟨Or.inl (show (0 : BitVec 8) < 2 by decide), by simp, by simp, by simp [Open], rfl, hc⟩

theorem Parsing.start (hc : Resumes c) : Parsing { client := c } := Or.inl (AtHeader.start hc)

theorem AtBody.resumes (hs : AtBody s) : Resumes s.client := by
  have hmost := hs.header.most
  rcases Nat.lt_or_ge s.client.msg_idx.toNat s.fixed_hdr_len.toNat with hlt | hge
  · -- `msg_idx` has wrapped
    exact .header (by omega) (hs.header.front.mono (by omega))
  · refine .body _ hs.header hge hs.len ?_
    have hmore := hs.more
    rw [hs.left] at hmore
    simpa [BitVec.ofNat_toNat] using hmore

/-- What is left when the bytes are used up. -/
theorem Parsing.resumes (hs : Parsing s) : Resumes s.client :=
  hs.elim AtHeader.resumes AtBody.resumes

/-! ## one message -/

/-- The state of the parser in a client. -/
def Client.parser (c : Client κ) : (Nat → Byte) × BitVec 32 := (c.rx_buffer, c.msg_idx)

@[simp] theorem parser_record (calls : List (Call κ)) (c : Client κ) :
    (c.record calls).parser = c.parser := rfl

@[simp] theorem parser_pub_ack_rec_rel_response (msg : Response) (pkt_id : BitVec 16) (qos : Byte)
    (c : Client κ) : (pub_ack_rec_rel_response msg pkt_id qos c).2.parser = c.parser := by
  unfold pub_ack_rec_rel_response
  split <;> rfl

theorem parser_receivePayload (qos : Byte) (payload_offset payload_length length : BitVec 16)
    (remaining_length : BitVec 32) (payload : List Byte) (c : Client κ) :
    (receivePayload qos payload_offset payload_length length remaining_length payload c).2.parser =
      c.parser := by
  unfold receivePayload
  split
  · split
    · rfl
    dsimp only
    split
    · rw [parser_pub_ack_rec_rel_response]
      split <;> rfl
    · dsimp only
      split <;> rfl
  · rfl

/-- `mqtt_message_received` does not change where the parser is. -/
theorem parser_mqtt_message_received {fixed_hdr_len : BitVec 8} {length : BitVec 16}
    {remaining_length : BitVec 32} {var_hdr_payload : Option (List Byte)} {res : Status × Client κ}
    (hres : mqtt_message_received fixed_hdr_len length remaining_length var_hdr_payload c =
      some res) : res.2.parser = c.parser := by
  unfold mqtt_message_received at hres
  dsimp only at hres
  split at hres
  · cases hres
    rfl
  split at hres
  · unfold receiveConnack at hres
    split at hres
    · split at hres
      · cases hres
        rfl
      obtain ⟨payload, -, rfl⟩ := Option.map_eq_some_iff.mp hres
      dsimp only
      split
      · dsimp only
        split <;> rfl
      · rfl
    · cases hres
      rfl
  split at hres
  · cases hres
    rfl
  split at hres
  · unfold receivePublish at hres
    dsimp only at hres
    split at hres
    · by_cases hlen : length.toNat < 2 + if MQTT_CTL_PACKET_QOS (c.rx_buffer 0) ≠ 0 then 2 else 0
      · rw [if_pos hlen] at hres
        cases hres
        rfl
      rw [if_neg hlen, Option.map_eq_some_iff] at hres
      obtain ⟨payload, -, rfl⟩ := hres
      split
      · rfl
      · rw [parser_receivePayload]
        split <;> rfl
    · obtain ⟨payload, -, rfl⟩ := Option.map_eq_some_iff.mp hres
      exact parser_receivePayload ..
  · unfold receiveIdentified at hres
    split at hres
    · cases hres
      rfl
    obtain ⟨payload, -, rfl⟩ := Option.map_eq_some_iff.mp hres
    dsimp only
    split
    · rfl
    split
    · exact parser_pub_ack_rec_rel_response ..
    split
    · exact parser_pub_ack_rec_rel_response ..
    split
    · unfold receiveResponse
      dsimp only
      split
      · rfl
      split
      · split <;> rfl
      · rfl
    · rfl

/-- A message without a body is not read through `NULL`, and changes nothing. -/
theorem message_received_empty {fixed_hdr_len : BitVec 8}
    (hidx : c.msg_idx = fixed_hdr_len.setWidth 32) :
    ∃ res, mqtt_message_received fixed_hdr_len 0 0 none c = some (res, c) := by
  have hsome : ∃ res, mqtt_message_received fixed_hdr_len 0 0 none c = some res := by
    unfold mqtt_message_received receiveConnack receivePublish receiveIdentified
    dsimp only
    split
    · exact ⟨_, rfl⟩
    split
    · split <;> exact ⟨_, rfl⟩
    split
    · exact ⟨_, rfl⟩
    split
    · rw [if_pos (by simpa using hidx), if_pos (by simp)]
      exact ⟨_, rfl⟩
    · exact ⟨_, rfl⟩
  obtain ⟨⟨res, c'⟩, hres⟩ := hsome
  obtain rfl : c' = c := mqtt_message_received_empty hres
  exact ⟨res, hres⟩

/-- What would not fit the buffer is refused before it is read. -/
theorem message_received_long {fixed_hdr_len : BitVec 8} {length : BitVec 16}
    (hlong : MQTT_VAR_HEADER_BUFFER_LEN < fixed_hdr_len.toNat + length.toNat)
    (remaining_length : BitVec 32) (var_hdr_payload : Option (List Byte)) (c : Client κ) :
    mqtt_message_received fixed_hdr_len length remaining_length var_hdr_payload c =
      some (MQTT_CONNECT_DISCONNECTED, c) := by
  unfold mqtt_message_received
  dsimp only
  rw [if_pos hlong]

theorem message_received_isSome (fixed_hdr_len : BitVec 8) (length : BitVec 16)
    (remaining_length : BitVec 32) (payload : List Byte) (c : Client κ) :
    ∃ res, mqtt_message_received fixed_hdr_len length remaining_length (some payload) c =
      some res := by
  unfold mqtt_message_received receiveConnack receivePublish receiveIdentified
  simp only [Option.map_some]
  repeat' split
  all_goals exact ⟨_, rfl⟩

/-- The messages that are accepted in parts of any length, even none. -/
def Client.ignores (c : Client κ) : Prop :=
  MQTT_CTL_PACKET_TYPE (c.rx_buffer 0) = MQTT_MSG_TYPE_PUBLISH ∨
    MQTT_CTL_PACKET_TYPE (c.rx_buffer 0) = MQTT_MSG_TYPE_PINGRESP ∨
    MQTT_CTL_PACKET_TYPE (c.rx_buffer 0) = MQTT_MSG_TYPE_CONNACK ∧
      c.conn_state ≠ .MQTT_CONNECTING

/-- A part of a message with nothing in it, and more to come, changes nothing. -/
theorem message_received_nothing {fixed_hdr_len : BitVec 8} {remaining_length : BitVec 32}
    (hmost : fixed_hdr_len.toNat ≤ 6) (hidx : 128 ≤ c.msg_idx.toNat)
    (hmore : remaining_length ≠ 0) :
    ∃ res, mqtt_message_received fixed_hdr_len 0 remaining_length (some []) c = some (res, c) ∧
      (res = MQTT_CONNECT_ACCEPTED ↔ c.ignores) := by
  have hfirst : c.msg_idx ≠ fixed_hdr_len.setWidth 32 + (0 : BitVec 16).setWidth 32 := fun heq => by
    have hsame : (fixed_hdr_len.setWidth 32 + (0 : BitVec 16).setWidth 32 : BitVec 32).toNat =
        fixed_hdr_len.toNat := by
      simp
      omega
    rw [heq, hsame] at hidx
    omega
  have hdis : MQTT_CONNECT_DISCONNECTED ≠ MQTT_CONNECT_ACCEPTED := by decide
  unfold mqtt_message_received Client.ignores
  dsimp only
  rw [if_neg (by simp [MQTT_VAR_HEADER_BUFFER_LEN]; omega)]
  generalize MQTT_CTL_PACKET_TYPE (c.rx_buffer 0) = pkt_type
  by_cases hconnack : pkt_type = MQTT_MSG_TYPE_CONNACK
  · subst hconnack
    unfold receiveConnack
    by_cases hstate : c.conn_state = .MQTT_CONNECTING
    · exact ⟨MQTT_CONNECT_DISCONNECTED, by simp [hstate], by
        simp [hstate, hdis, MQTT_MSG_TYPE_CONNACK, MQTT_MSG_TYPE_PUBLISH, MQTT_MSG_TYPE_PINGRESP]⟩
    · exact ⟨MQTT_CONNECT_ACCEPTED, by simp [hstate], by simp [hstate]⟩
  by_cases hpingresp : pkt_type = MQTT_MSG_TYPE_PINGRESP
  · exact ⟨MQTT_CONNECT_ACCEPTED, by rw [if_neg hconnack, if_pos hpingresp], by simp [hpingresp]⟩
  by_cases hpublish : pkt_type = MQTT_MSG_TYPE_PUBLISH
  · refine ⟨MQTT_CONNECT_ACCEPTED, ?_, by simp [hpublish]⟩
    rw [if_neg hconnack, if_neg hpingresp, if_pos hpublish]
    unfold receivePublish receivePayload
    dsimp only
    rw [if_neg hfirst, Option.map_some, if_neg (by simpa using hmore)]
  · refine ⟨MQTT_CONNECT_DISCONNECTED, ?_, by simp [hconnack, hpingresp, hpublish, hdis]⟩
    rw [if_neg hconnack, if_neg hpingresp, if_neg hpublish]
    rfl

/-! ## one round -/

theorem parseRound_eq (p : Chain) (s : Parse κ) :
    parseRound p s = if s.in_offset < p.tot_len then
      if reading s then parseHeader p s else parseBody p s
    else .ret (MQTT_CONNECT_ACCEPTED, s.client) := rfl

/-- What a round takes something off. -/
def todo (p : Chain) (s : Parse κ) : Nat :=
  (p.bytes.length - s.in_offset.toNat) * 8 + (7 - s.fixed_hdr_len.toNat)

/-- The byte is in the buffer, where it has been or has just been put. -/
theorem nextByte_spec (hs : AtHeader s) (p : Chain) :
    ∃ s', nextByte p s = some s' ∧ s'.fixed_hdr_len = s.fixed_hdr_len ∧
      s'.msg_rem_len = s.msg_rem_len ∧ s'.b = s'.client.rx_buffer s.fixed_hdr_len.toNat ∧
      (∀ i < s.fixed_hdr_len.toNat, s'.client.rx_buffer i = s.client.rx_buffer i) ∧
      (s.fixed_hdr_len.toNat < s.client.msg_idx.toNat ∧ s'.client = s.client ∧
          s'.in_offset = s.in_offset ∨
        s.fixed_hdr_len.toNat = s.client.msg_idx.toNat ∧
          s'.client.msg_idx.toNat = s.fixed_hdr_len.toNat + 1 ∧
          s'.client.rx_buffer s.fixed_hdr_len.toNat = pbuf_get_at p.bufs s.in_offset.toNat ∧
          s'.client = { s.client with
            rx_buffer := s'.client.rx_buffer, msg_idx := s.client.msg_idx + 1 } ∧
          s'.in_offset = s.in_offset + 1) := by
  have hfew := hs.few
  have hbehind := hs.behind
  have hwidth : s.fixed_hdr_len.setWidth 32 < s.client.msg_idx ↔
      s.fixed_hdr_len.toNat < s.client.msg_idx.toNat := by
    rw [BitVec.lt_def, BitVec.toNat_setWidth, Nat.mod_eq_of_lt (by omega)]
  unfold nextByte MQTT_VAR_HEADER_BUFFER_LEN
  by_cases hlt : s.fixed_hdr_len.toNat < s.client.msg_idx.toNat
  · rw [if_pos (hwidth.mpr hlt), if_pos (by omega)]
    exact ⟨_, rfl, rfl, rfl, rfl, fun _ _ => rfl, Or.inl ⟨hlt, rfl, rfl⟩⟩
  · have heq : s.fixed_hdr_len.toNat = s.client.msg_idx.toNat := by omega
    rw [if_neg (mt hwidth.mp hlt), if_pos (by omega)]
    refine ⟨_, rfl, rfl, rfl, by simp [heq], fun i hi => ?_,
      Or.inr ⟨heq, ?_, by simp [heq], rfl, rfl⟩⟩
    · dsimp only
      rw [if_neg (by omega)]
    · rw [BitVec.toNat_add]
      simp
      omega

/-- What a round at the fixed header makes of the client. -/
inductive HeaderRound (p : Chain) (s s' : Parse κ) : Prop
  | reread (behind : s.fixed_hdr_len.toNat < s.client.msg_idx.toNat)
      (count : s'.fixed_hdr_len = s.fixed_hdr_len + 1) (client : s'.client = s.client)
      (offset : s'.in_offset = s.in_offset)
  /-- A new byte; it may be the last one of a message without a body. -/
  | read (rx : Nat → Byte) (fresh : s.fixed_hdr_len.toNat = s.client.msg_idx.toNat)
      (offset : s'.in_offset = s.in_offset + 1)
      (old : ∀ i < s.fixed_hdr_len.toNat, rx i = s.client.rx_buffer i)
      (new_ : rx s.fixed_hdr_len.toNat = pbuf_get_at p.bufs s.in_offset.toNat)
      (client : s'.fixed_hdr_len = s.fixed_hdr_len + 1 ∧
          s'.client = { s.client with rx_buffer := rx, msg_idx := s.client.msg_idx + 1 } ∨
        s'.client = { s.client with rx_buffer := rx, msg_idx := 0 } ∧
          Header rx (s.fixed_hdr_len.toNat + 1) ∧ remLen rx s.fixed_hdr_len.toNat = 0)

/-- A sixth length byte would be shifted by 35; any other one is taken. -/
theorem parseHeader_spec (hs : AtHeader s) (hoff : s.in_offset < p.tot_len) :
    (s.fixed_hdr_len.toNat = 6 → parseHeader p s = .fault) ∧
      (s.fixed_hdr_len.toNat ≠ 6 →
        ∃ s', parseHeader p s = .next s' ∧ Parsing s' ∧ todo p s' < todo p s ∧
          s'.fixed_hdr_len.toNat ≤ s'.client.msg_idx.toNat ∧ HeaderRound p s s') := by
  obtain ⟨s₁, hbyte, hfixed, hrem, hb, hrx, hsource⟩ := nextByte_spec hs p
  have hfew := hs.few
  rw [BitVec.lt_def, Chain.toNat_tot_len] at hoff
  have hfits := p.fits
  have hnext : (s.in_offset + 1).toNat = s.in_offset.toNat + 1 := by
    rw [BitVec.toNat_add]
    simp
    unfold Chain.bytes at hoff
    omega
  have hcount : (s.fixed_hdr_len + 1).toNat = s.fixed_hdr_len.toNat + 1 := by
    rw [BitVec.toNat_add]
    simp
    omega
  have hshift : (2 : BitVec 8) ≤ s.fixed_hdr_len + 1 ↔ 1 ≤ s.fixed_hdr_len.toNat := by
    rw [BitVec.le_def, hcount]
    simp
  have hfront : Open s₁.client.rx_buffer s.fixed_hdr_len.toNat := hs.front.congr hrx
  have hlen : remLen s₁.client.rx_buffer (s.fixed_hdr_len.toNat - 1) = s₁.msg_rem_len := by
    rw [hrem, hs.len]
    exact remLen_congr fun i _ hi => hrx i (by omega)
  by_cases hsix : s.fixed_hdr_len.toNat = 6
  · refine ⟨fun _ => ?_, fun hne => absurd hsix hne⟩
    unfold parseHeader
    rw [hbyte]
    dsimp only
    rw [hfixed, if_pos (hshift.mpr (by omega)), if_pos (by rw [hcount]; omega)]
  refine ⟨fun heq => absurd heq hsix, fun _ => ?_⟩
  have hwidth : ((s.fixed_hdr_len + 1).setWidth 32).toNat = s.fixed_hdr_len.toNat + 1 := by
    rw [BitVec.toNat_setWidth, hcount, Nat.mod_eq_of_lt (by omega)]
  have hbehind : s.fixed_hdr_len.toNat + 1 ≤ s₁.client.msg_idx.toNat := by
    rcases hsource with ⟨hlt, hclient, -⟩ | ⟨-, hidx, -⟩
    · rw [hclient]
      omega
    · omega
  have hresumes : Open s₁.client.rx_buffer (s.fixed_hdr_len.toNat + 1) → Resumes s₁.client := by
    intro hopen
    rcases hsource with ⟨-, hclient, -⟩ | ⟨-, hidx, -⟩
    · rw [hclient]
      exact hs.resumes
    · exact .header (by omega) (by rwa [hidx])
  have htodo : ∀ s' : Parse κ, s'.in_offset = s₁.in_offset →
      s'.fixed_hdr_len = s.fixed_hdr_len + 1 → todo p s' < todo p s := by
    intro s' hoffset hfixed'
    unfold todo
    rw [hoffset, hfixed', hcount]
    rcases hsource with ⟨-, -, hin⟩ | ⟨-, -, -, -, hin⟩
    · rw [hin]
      omega
    · rw [hin, hnext]
      omega
  have hround : ∀ s' : Parse κ, s'.client = s₁.client → s'.in_offset = s₁.in_offset →
      s'.fixed_hdr_len = s.fixed_hdr_len + 1 → HeaderRound p s s' := by
    intro s' hclient' hoffset' hcount'
    rcases hsource with ⟨hbehind', hclient, hin⟩ | ⟨hfresh, -, hnew, hclient, hin⟩
    · exact .reread hbehind' hcount' (hclient'.trans hclient) (hoffset'.trans hin)
    · exact .read _ hfresh (hoffset'.trans hin) hrx hnew
        (Or.inl ⟨hcount', hclient'.trans hclient⟩)
  unfold parseHeader
  rw [hbyte]
  dsimp only
  rw [hfixed]
  by_cases hzero : s.fixed_hdr_len.toNat = 0
  · rw [if_neg (by rw [hshift]; omega)]
    have hopen : Open s₁.client.rx_buffer (s.fixed_hdr_len.toNat + 1) := fun i h₁ h₂ => by omega
    refine ⟨_, rfl, Or.inl ⟨Or.inl ?_, ?_, ?_, ?_, ?_, hresumes hopen⟩, htodo _ rfl rfl,
      by rwa [hcount], hround _ rfl rfl rfl⟩
    · rw [BitVec.lt_def, hcount, hzero]
      decide
    · rw [hcount]
      omega
    · rwa [hcount]
    · rwa [hcount]
    · rw [hcount, Nat.add_sub_cancel, ← hlen, hzero]
  rw [if_pos (hshift.mpr (by omega)), if_neg (by rw [hcount]; omega)]
  have hvalue : s₁.msg_rem_len |||
      ((s₁.b &&& 0x7f).setWidth 32 <<< (((s.fixed_hdr_len + 1).toNat - 2) * 7)) =
        remLen s₁.client.rx_buffer s.fixed_hdr_len.toNat := by
    obtain ⟨k, hk⟩ : ∃ k, s.fixed_hdr_len.toNat = k + 1 := ⟨_, (Nat.succ_pred hzero).symm⟩
    rw [hcount, ← hlen, hb, hk]
    rfl
  rw [hvalue]
  by_cases hmore : s₁.b &&& 0x80 = 0
  · rw [if_pos hmore]
    have hheader : Header s₁.client.rx_buffer (s.fixed_hdr_len.toNat + 1) :=
      ⟨by omega, by omega, hfront, by rwa [Nat.add_sub_cancel, ← hb]⟩
    unfold headerDone
    dsimp only
    by_cases hempty : remLen s₁.client.rx_buffer s.fixed_hdr_len.toNat = 0
    · -- the whole header has come in this call
      rcases hsource with ⟨-, hclient, -⟩ | ⟨hfresh, hidx, hnew, hclient, hin⟩
      · rw [hclient] at hheader hbehind hempty
        exact absurd hempty (hs.resumes.of_header hheader hbehind).1
      have heq : s₁.client.msg_idx = (s.fixed_hdr_len + 1).setWidth 32 := by
        apply BitVec.eq_of_toNat_eq
        rw [hidx, hwidth]
      obtain ⟨res, hres⟩ := message_received_empty heq
      rw [if_pos hempty, hres]
      refine ⟨_, rfl, Or.inl ⟨Or.inl (show (0 : BitVec 8) < 2 by decide), by simp, by simp,
        by simp [Open], hempty, Resumes.start rfl⟩, ?_, by simp,
        .read _ hfresh hin hrx hnew (Or.inr ⟨?_, hheader, hempty⟩)⟩
      · unfold todo
        simp only [hin, hnext]
        omega
      · dsimp only
        rw [hclient]
    · rw [if_neg hempty]
      refine ⟨_, rfl, Or.inr ⟨?_, by rwa [hcount], ?_, ?_, ?_⟩, htodo _ rfl rfl,
        by rwa [hcount], hround _ rfl rfl rfl⟩
      · unfold reading
        rw [not_or, BitVec.lt_def, hcount]
        refine ⟨?_, not_not.mpr hmore⟩
        simp
        omega
      · rwa [hcount]
      · rw [hcount]
        rfl
      · rcases hsource with ⟨-, hclient, -⟩ | ⟨-, hidx, -⟩
        · rw [hclient] at hheader hbehind
          have hleft := (hs.resumes.of_header hheader hbehind).2
          have hwide : BitVec.ofNat 32 (s.fixed_hdr_len.toNat + 1) =
              (s.fixed_hdr_len + 1).setWidth 32 := by
            rw [← hwidth, BitVec.ofNat_toNat, BitVec.setWidth_eq]
          rw [← hclient, hwide, Nat.add_sub_cancel] at hleft
          exact hleft
        · have heq : s₁.client.msg_idx = (s.fixed_hdr_len + 1).setWidth 32 := by
            apply BitVec.eq_of_toNat_eq
            rw [hidx, hwidth]
          dsimp only
          rw [heq, BitVec.add_sub_cancel]
          exact hempty
  · rw [if_neg hmore]
    have hopen : Open s₁.client.rx_buffer (s.fixed_hdr_len.toNat + 1) := fun i h₁ h₂ => by
      rcases Nat.lt_or_eq_of_le (Nat.le_of_lt_succ h₂) with hlt | rfl
      · exact hfront i h₁ hlt
      · rwa [← hb]
    refine ⟨_, rfl, Or.inl ⟨Or.inr hmore, ?_, ?_, ?_, ?_, hresumes hopen⟩, htodo _ rfl rfl,
      by rwa [hcount], hround _ rfl rfl rfl⟩
    · rw [hcount]
      omega
    · rwa [hcount]
    · rwa [hcount]
    · rw [hcount]
      rfl

/-- What of the message is in the chain and fits the buffer. -/
def least (p : Chain) (s : Parse κ) : Nat :=
  min (min (p.bytes.length - s.in_offset.toNat) s.msg_rem_len.toNat)
    (MQTT_VAR_HEADER_BUFFER_LEN - s.fixed_hdr_len.toNat)

/-- Behind the first 128 bytes of a message `cpy_len` ends with the first pbuf. -/
theorem toNat_cpyLen (hoff : s.in_offset.toNat < p.bytes.length)
    (hfixed : s.fixed_hdr_len.toNat ≤ 128) :
    (cpyLen p s).toNat =
      if 128 ≤ s.client.msg_idx.toNat ∧ p.len.toNat < s.in_offset.toNat + least p s then
        (p.len.toNat + 65536 - s.in_offset.toNat) % 65536
      else least p s := by
  have hfits := p.fits
  have hlt := s.in_offset.isLt
  have hrem := s.msg_rem_len.isLt
  have htot : p.bytes.length < 65536 := hfits
  have hleft : (p.tot_len - s.in_offset).toNat = p.bytes.length - s.in_offset.toNat := by
    rw [BitVec.toNat_sub, Chain.toNat_tot_len]
    omega
  have hspace : ((128 : BitVec 16) - s.fixed_hdr_len.setWidth 16).toNat =
      128 - s.fixed_hdr_len.toNat := by
    rw [BitVec.toNat_sub, BitVec.toNat_setWidth]
    simp
    omega
  have hmin : (if (p.tot_len - s.in_offset).setWidth 32 < s.msg_rem_len then
      p.tot_len - s.in_offset else s.msg_rem_len.setWidth 16).toNat =
        min (p.bytes.length - s.in_offset.toNat) s.msg_rem_len.toNat := by
    have hwidth : ((p.tot_len - s.in_offset).setWidth 32).toNat =
        p.bytes.length - s.in_offset.toNat := by
      rw [BitVec.toNat_setWidth, hleft, Nat.mod_eq_of_lt (by omega)]
    split
    · rename_i hlt
      rw [BitVec.lt_def, hwidth] at hlt
      rw [hleft]
      omega
    · rename_i hge
      rw [BitVec.lt_def, hwidth] at hge
      rw [BitVec.toNat_setWidth]
      omega
  unfold cpyLen least MQTT_VAR_HEADER_BUFFER_LEN
  dsimp only
  generalize (if (p.tot_len - s.in_offset).setWidth 32 < s.msg_rem_len then
    p.tot_len - s.in_offset else s.msg_rem_len.setWidth 16) = m at hmin ⊢
  have hbuffer : (if (128 : BitVec 16) - s.fixed_hdr_len.setWidth 16 < m then
      (128 : BitVec 16) - s.fixed_hdr_len.setWidth 16 else m).toNat =
        min (min (p.bytes.length - s.in_offset.toNat) s.msg_rem_len.toNat)
          (128 - s.fixed_hdr_len.toNat) := by
    split
    · rename_i hlt
      rw [BitVec.lt_def, hspace] at hlt
      omega
    · rename_i hge
      rw [BitVec.lt_def, hspace] at hge
      omega
  generalize (if (128 : BitVec 16) - s.fixed_hdr_len.setWidth 16 < m then
    (128 : BitVec 16) - s.fixed_hdr_len.setWidth 16 else m) = m' at hbuffer ⊢
  have hidx : (128 : BitVec 32) ≤ s.client.msg_idx ↔ 128 ≤ s.client.msg_idx.toNat := by
    simp [BitVec.le_def]
  rw [← hbuffer]
  by_cases hcut : 128 ≤ s.client.msg_idx.toNat ∧ p.len.toNat < s.in_offset.toNat + m'.toNat
  · rw [if_pos ⟨hidx.mpr hcut.1, by omega⟩, if_pos hcut, BitVec.toNat_sub]
    congr 1
    omega
  · rw [if_neg hcut, if_neg]
    rintro ⟨h₁, h₂⟩
    exact hcut ⟨hidx.mp h₁, by omega⟩

/-- A part of the message that is there, in one piece or copied behind the header. -/
theorem parseBody_eq (hoff : s.in_offset.toNat < p.bytes.length)
    (hlen : s.in_offset.toNat + (cpyLen p s).toNat ≤ p.bytes.length)
    (hspace : (cpyLen p s).toNat ≤ MQTT_VAR_HEADER_BUFFER_LEN - s.fixed_hdr_len.toNat) :
    ∃ rx, (∀ i < s.fixed_hdr_len.toNat, rx i = s.client.rx_buffer i) ∧
      ((cpyLen p s).toNat = 0 → rx = s.client.rx_buffer) ∧
      ∃ res, mqtt_message_received s.fixed_hdr_len (cpyLen p s)
          (s.msg_rem_len - (cpyLen p s).setWidth 32)
          (some ((p.bytes.drop s.in_offset.toNat).take (cpyLen p s).toNat))
          { s.client with
            rx_buffer := rx
            msg_idx := s.client.msg_idx + (cpyLen p s).setWidth 32 } = some res ∧
        parseBody p s = bodyDone (cpyLen p s) s res := by
  obtain ⟨copied, hcontiguous⟩ := pbuf_get_contiguous_eq hoff hlen hspace
  unfold MQTT_VAR_HEADER_BUFFER_LEN at hcontiguous
  cases copied with
  | false =>
      obtain ⟨res, hres⟩ := message_received_isSome s.fixed_hdr_len (cpyLen p s)
        (s.msg_rem_len - (cpyLen p s).setWidth 32)
        ((p.bytes.drop s.in_offset.toNat).take (cpyLen p s).toNat)
        { s.client with msg_idx := s.client.msg_idx + (cpyLen p s).setWidth 32 }
      refine ⟨s.client.rx_buffer, fun _ _ => rfl, fun _ => rfl, res, hres, ?_⟩
      unfold parseBody
      dsimp only
      rw [hcontiguous]
      dsimp only [Option.map_some]
      unfold Chain.bytes at hres
      rw [hres]
  | true =>
      obtain ⟨res, hres⟩ := message_received_isSome s.fixed_hdr_len (cpyLen p s)
        (s.msg_rem_len - (cpyLen p s).setWidth 32)
        ((p.bytes.drop s.in_offset.toNat).take (cpyLen p s).toNat)
        { s.client with
          rx_buffer := Mem.store s.client.rx_buffer s.fixed_hdr_len.toNat
            ((p.bytes.drop s.in_offset.toNat).take (cpyLen p s).toNat)
          msg_idx := s.client.msg_idx + (cpyLen p s).setWidth 32 }
      refine ⟨_, fun i hi => Mem.store_of_lt _ _ hi, fun hzero => by simp [hzero], res, hres, ?_⟩
      unfold parseBody
      dsimp only
      rw [hcontiguous]
      dsimp only [Option.map_some]
      unfold Chain.bytes at hres
      rw [hres]

/-- The loop in front of a part with nothing in it: the first pbuf ends here, and the
message does not. -/
structure Stuck (p : Chain) (s : Parse κ) : Prop extends AtBody s where
  end_ : s.in_offset = p.len
  behind : p.len < p.tot_len
  late : 128 ≤ s.client.msg_idx.toNat
  ignores : s.client.ignores

/-- What would not fit the buffer ends the connection. -/
theorem parseBody_long (hlong : MQTT_VAR_HEADER_BUFFER_LEN <
    s.fixed_hdr_len.toNat + (cpyLen p s).toNat) :
    ∃ rx idx, parseBody p s =
      .ret (MQTT_CONNECT_DISCONNECTED, { s.client with rx_buffer := rx, msg_idx := idx }) := by
  unfold parseBody
  dsimp only
  rw [message_received_long hlong]
  exact ⟨_, _, rfl⟩

/-- A part with nothing in it. -/
theorem parseBody_nothing (hs : AtBody s) (hoff : s.in_offset.toNat < p.bytes.length)
    (hlate : 128 ≤ s.client.msg_idx.toNat) (hzero : cpyLen p s = 0#16) :
    (s.client.ignores → parseBody p s = .next s) ∧
      (¬s.client.ignores → ∃ res, parseBody p s = .ret res ∧ res.1 ≠ MQTT_CONNECT_ACCEPTED) := by
  obtain ⟨rx, -, hrx, res, hres, hbody⟩ :=
    parseBody_eq hoff (by simp [hzero]; omega) (by simp [hzero])
  obtain rfl := hrx (by simp [hzero])
  obtain ⟨status, hnothing, hstatus⟩ :=
    message_received_nothing (c := s.client) hs.header.most hlate hs.more
  have hwidth : (cpyLen p s).setWidth 32 = 0#32 := by rw [hzero, BitVec.setWidth_zero]
  rw [hwidth, hzero, BitVec.sub_zero, BitVec.add_zero, BitVec.toNat_zero, List.take_zero] at hres
  obtain rfl : (status, s.client) = res := Option.some.inj (hnothing.symm.trans hres)
  rw [hbody]
  unfold bodyDone
  rw [hwidth, hzero, BitVec.sub_zero, BitVec.add_zero]
  dsimp only
  refine ⟨fun hignores => ?_, fun hignores => ⟨_, if_pos (mt hstatus.mp hignores),
    mt hstatus.mp hignores⟩⟩
  rw [if_neg (not_not.mpr (hstatus.mpr hignores)), if_neg hs.more]

theorem AtBody.rem_pos (hs : AtBody s) : 0 < s.msg_rem_len.toNat := by
  have hmore := hs.more
  rw [← BitVec.toNat_ne_iff_ne] at hmore
  simp at hmore
  omega

theorem AtBody.least_pos (hs : AtBody s) (hoff : s.in_offset.toNat < p.bytes.length) :
    0 < least p s := by
  have hmost := hs.header.most
  have hrem := hs.rem_pos
  unfold least MQTT_VAR_HEADER_BUFFER_LEN
  omega

theorem Stuck.round (hs : Stuck p s) : parseRound p s = .next s := by
  have hmost := hs.header.most
  have hoff : s.in_offset < p.tot_len := by
    rw [hs.end_]
    exact hs.behind
  have hlt := hoff
  rw [BitVec.lt_def, Chain.toNat_tot_len] at hlt
  have hzero : cpyLen p s = 0#16 := by
    have hin := congrArg BitVec.toNat hs.end_
    have hleast := hs.least_pos hlt
    apply BitVec.eq_of_toNat_eq
    rw [toNat_cpyLen hlt (by omega), if_pos ⟨hs.late, by omega⟩, hin, Nat.add_sub_cancel_left]
    rfl
  rw [parseRound_eq, if_pos hoff, if_neg hs.done,
    (parseBody_nothing hs.toAtBody hlt hs.late hzero).1 hs.ignores]

/-- A round behind the fixed header: more than fits, nothing, or a part of the message. -/
theorem parseBody_cases (hs : AtBody s) (hoff : s.in_offset < p.tot_len)
    (hwnd : p.bytes.length ≤ TCP_WND) :
    (∃ rx idx, parseBody p s =
        .ret (MQTT_CONNECT_DISCONNECTED, { s.client with rx_buffer := rx, msg_idx := idx })) ∨
      (cpyLen p s = 0#16 ∧ 128 ≤ s.client.msg_idx.toNat ∧ s.in_offset = p.len) ∨
      (0 < (cpyLen p s).toNat ∧ (cpyLen p s).toNat ≤ least p s ∧
        s.fixed_hdr_len.toNat + (cpyLen p s).toNat ≤ MQTT_VAR_HEADER_BUFFER_LEN) := by
  have hlt := hoff
  rw [BitVec.lt_def, Chain.toNat_tot_len] at hlt
  have hmost := hs.header.most
  have hin := s.in_offset.isLt
  have hpos := hs.least_pos hlt
  unfold TCP_WND TCP_MSS at hwnd
  have hcpy := toNat_cpyLen hlt (show s.fixed_hdr_len.toNat ≤ 128 by omega)
  by_cases hlong : MQTT_VAR_HEADER_BUFFER_LEN < s.fixed_hdr_len.toNat + (cpyLen p s).toNat
  · exact Or.inl (parseBody_long hlong)
  have hfit : (cpyLen p s).toNat ≤ least p s ∧ ((cpyLen p s).toNat = 0 →
      128 ≤ s.client.msg_idx.toNat ∧ s.in_offset.toNat = p.len.toNat) := by
    unfold MQTT_VAR_HEADER_BUFFER_LEN at hlong
    rw [hcpy] at hlong ⊢
    split
    · rename_i hcut
      rw [if_pos hcut] at hlong
      omega
    · omega
  right
  by_cases hzero : (cpyLen p s).toNat = 0
  · obtain ⟨hlate, hend⟩ := hfit.2 hzero
    exact Or.inl ⟨BitVec.eq_of_toNat_eq hzero, hlate, BitVec.eq_of_toNat_eq hend⟩
  · exact Or.inr ⟨by omega, hfit.1, by omega⟩

theorem least_le (p : Chain) (s : Parse κ) :
    least p s ≤ p.bytes.length - s.in_offset.toNat ∧ least p s ≤ s.msg_rem_len.toNat ∧
      least p s ≤ MQTT_VAR_HEADER_BUFFER_LEN - s.fixed_hdr_len.toNat := by
  unfold least
  omega

/-- It takes some of the message, unless the loop is stuck. -/
theorem parseBody_spec (hs : AtBody s) (hoff : s.in_offset < p.tot_len)
    (hwnd : p.bytes.length ≤ TCP_WND) :
    (∃ res, parseBody p s = .ret res ∧ res.1 ≠ MQTT_CONNECT_ACCEPTED) ∨
      (∃ s', parseBody p s = .next s' ∧ Parsing s' ∧ todo p s' < todo p s) ∨ Stuck p s := by
  have hlt := hoff
  rw [BitVec.lt_def, Chain.toNat_tot_len] at hlt
  have hmost := hs.header.most
  have hleft := least_le p s
  rcases parseBody_cases hs hoff hwnd with
    ⟨rx, idx, hlong⟩ | ⟨hzero, hlate, hend⟩ | ⟨hpos, hle, hspace⟩
  · exact Or.inl ⟨_, hlong, show MQTT_CONNECT_DISCONNECTED ≠ MQTT_CONNECT_ACCEPTED by decide⟩
  · have hnothing := parseBody_nothing hs hlt hlate hzero
    by_cases hignores : s.client.ignores
    · exact Or.inr (Or.inr ⟨hs, hend, by rwa [← hend], hlate, hignores⟩)
    · exact Or.inl (hnothing.2 hignores)
  obtain ⟨rx, hrx, -, res, hres, hbody⟩ := parseBody_eq hlt (by omega) (by omega)
  rw [hbody]
  unfold bodyDone
  by_cases haccepted : res.1 = MQTT_CONNECT_ACCEPTED
  swap
  · exact Or.inl ⟨res, if_pos haccepted, haccepted⟩
  rw [if_neg (not_not.mpr haccepted)]
  obtain ⟨hbuffer, hidx⟩ := Prod.mk.inj (parser_mqtt_message_received hres)
  have hfits := p.fits
  have hnext : (s.in_offset + cpyLen p s).toNat = s.in_offset.toNat + (cpyLen p s).toNat := by
    unfold Chain.bytes at hleft
    rw [BitVec.toNat_add]
    omega
  right
  left
  dsimp only
  split
  · rename_i hdone
    refine ⟨_, rfl, Or.inl ⟨Or.inl (show (0 : BitVec 8) < 2 by decide), by simp, by simp,
      by simp [Open], hdone, Resumes.start rfl⟩, ?_⟩
    unfold todo
    dsimp only
    rw [hnext]
    simp
    omega
  · rename_i hmore
    have hsame : ∀ i < s.fixed_hdr_len.toNat, res.2.rx_buffer i = s.client.rx_buffer i := by
      rw [hbuffer]
      exact hrx
    have hrem := remLen_congr (k := s.fixed_hdr_len.toNat - 1) fun i h₁ h₂ => hsame i (by omega)
    refine ⟨_, rfl, Or.inr ⟨hs.done, hs.header.congr hsame, ?_, ?_, hmore⟩, ?_⟩
    · dsimp only
      rw [hrem]
      exact hs.len
    · dsimp only
      rw [hrem, hidx, hs.left]
      bv_omega
    · unfold todo
      dsimp only
      rw [hnext]
      omega

/-! ## the loop -/

/-- The one thing a round can do that the language leaves undefined. -/
def SixthLengthByte (p : Chain) (s : Parse κ) : Prop :=
  AtHeader s ∧ s.fixed_hdr_len = 6 ∧ s.in_offset < p.tot_len

/-- One round. -/
theorem parseRound_spec (hs : Parsing s) (hwnd : p.bytes.length ≤ TCP_WND) :
    (∃ res, parseRound p s = .ret res ∧ (res.1 = MQTT_CONNECT_ACCEPTED → Resumes res.2)) ∨
      (∃ s', parseRound p s = .next s' ∧ Parsing s' ∧ todo p s' < todo p s) ∨
      Stuck p s ∨ (parseRound p s = .fault ∧ SixthLengthByte p s) := by
  rw [parseRound_eq]
  by_cases hoff : s.in_offset < p.tot_len
  · rw [if_pos hoff]
    rcases hs with hs | hs
    · rw [if_pos hs.reading]
      by_cases hsix : s.fixed_hdr_len.toNat = 6
      · exact Or.inr (Or.inr (Or.inr ⟨(parseHeader_spec hs hoff).1 hsix, hs,
          BitVec.eq_of_toNat_eq hsix, hoff⟩))
      · obtain ⟨s', hs', hparsing, htodo, -⟩ := (parseHeader_spec hs hoff).2 hsix
        exact Or.inr (Or.inl ⟨s', hs', hparsing, htodo⟩)
    · rw [if_neg hs.done]
      rcases parseBody_spec hs hoff hwnd with ⟨res, hres, hne⟩ | hnext | hstuck
      · exact Or.inl ⟨res, hres, fun h => absurd h hne⟩
      · exact Or.inr (Or.inl hnext)
      · exact Or.inr (Or.inr (Or.inl hstuck))
  · rw [if_neg hoff]
    exact Or.inl ⟨_, rfl, fun _ => hs.resumes⟩

theorem SixthLengthByte.round (hs : SixthLengthByte p s) : parseRound p s = .fault := by
  obtain ⟨hheader, hsix, hoff⟩ := hs
  rw [parseRound_eq, if_pos hoff, if_pos hheader.reading]
  exact (parseHeader_spec hheader hoff).1 (by rw [hsix]; rfl)

theorem parseRound_parsing (hs : Parsing s) (hwnd : p.bytes.length ≤ TCP_WND)
    (hround : parseRound p s = .next s') : Parsing s' := by
  rcases parseRound_spec hs hwnd with ⟨res, hret, -⟩ | ⟨t, hnext, ht, -⟩ | hstuck | ⟨hundef, -⟩
  · rw [hround] at hret
    cases hret
  · rw [hround] at hnext
    cases hnext
    exact ht
  · rw [hstuck.round] at hround
    cases hround
    exact hs
  · rw [hround] at hundef
    cases hundef

theorem Resumes.undefined_iff (hc : Resumes c) (hwnd : p.bytes.length ≤ TCP_WND) :
    Machine.Undefined (parseRound p) { client := c } ↔
      ∃ s, Machine.Reaches (parseRound p) { client := c } s ∧ SixthLengthByte p s := by
  constructor
  · intro hundefined
    obtain ⟨s, hreach, hs, hundef⟩ := hundefined.reaches (Parsing.start hc)
      fun s s' hs hround => parseRound_parsing hs hwnd hround
    rcases parseRound_spec hs hwnd with ⟨res, hret, -⟩ | ⟨t, hnext, -⟩ | hstuck | ⟨-, hsix⟩
    · rw [hundef] at hret
      cases hret
    · rw [hundef] at hnext
      cases hnext
    · have hround := hstuck.round
      rw [hundef] at hround
      cases hround
    · exact ⟨s, hreach, hsix⟩
  · rintro ⟨s, hreach, hsix⟩
    exact hreach.undefined hsix.round

theorem Resumes.outcome (hc : Resumes c) (hwnd : p.bytes.length ≤ TCP_WND) :
    (∃ res, mqtt_parse_incoming p c res) ∨
      (∃ s, Machine.Reaches (parseRound p) { client := c } s ∧ Stuck p s) ∨
      ∃ s, Machine.Reaches (parseRound p) { client := c } s ∧ SixthLengthByte p s := by
  rcases Machine.outcome_of_measure Parsing (todo p) (Stuck p)
    (fun s hs => by
      rcases parseRound_spec hs hwnd with ⟨res, hret, -⟩ | hnext | hstuck | ⟨hundef, -⟩
      · exact Or.inl ⟨res, hret⟩
      · exact Or.inr (Or.inl hnext)
      · exact Or.inr (Or.inr (Or.inl hstuck))
      · exact Or.inr (Or.inr (Or.inr hundef))) (Parsing.start hc)
    with hreturns | ⟨s, hreach, -, hstuck⟩ | ⟨s, hreach, -, hundef⟩
  · exact Or.inl hreturns
  · exact Or.inr (Or.inl ⟨s, hreach, hstuck⟩)
  · exact Or.inr (Or.inr ((hc.undefined_iff hwnd).mp (hreach.undefined hundef)))

theorem Resumes.of_returns (hc : Resumes c) (hwnd : p.bytes.length ≤ TCP_WND)
    {res : Status × Client κ} (hres : mqtt_parse_incoming p c res)
    (haccepted : res.1 = MQTT_CONNECT_ACCEPTED) : Resumes res.2 := by
  refine Machine.Returns.of_invariant Parsing (fun res => res.1 = _ → Resumes res.2) hres
    (Parsing.start hc) (fun s s' hs hround => parseRound_parsing hs hwnd hround) ?_ haccepted
  intro s res hs hround
  rcases parseRound_spec hs hwnd with ⟨res', hret, hresumes⟩ | ⟨t, hnext, -⟩ | hstuck | ⟨hundef, -⟩
  · rw [hround] at hret
    cases hret
    exact hresumes
  · rw [hround] at hnext
    cases hnext
  · have hstay := hstuck.round
    rw [hround] at hstay
    cases hstay
  · rw [hround] at hundef
    cases hundef

end Enc28j60.Mqtt
