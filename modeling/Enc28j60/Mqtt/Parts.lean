import Enc28j60.Mqtt.Parser

/-!
# Enc28j60.Mqtt.Parts

What `mqtt_message_received` does with one part of a message, as far as the
application and the connection see it: the callbacks it calls, and what it leaves alone
(`Client.core`).
-/

namespace Enc28j60.Mqtt

open App (LwipErr ClientState Status MQTT_CONNECT_ACCEPTED MQTT_CONNECT_DISCONNECTED)

variable {κ : Type} {c : Client κ}

/-- What is neither the parser's, nor the output's, nor the requests'. -/
structure Core where
  conn : Bool
  conn_state : ClientState
  cyclic_tick : BitVec 16
  server_watchdog : BitVec 16
  keep_alive : BitVec 16
  connect_cb : Bool
  pub_cb : Bool
  data_cb : Bool

def Client.core (c : Client κ) : Core where
  conn := c.conn
  conn_state := c.conn_state
  cyclic_tick := c.cyclic_tick
  server_watchdog := c.server_watchdog
  keep_alive := c.keep_alive
  connect_cb := c.connect_cb
  pub_cb := c.pub_cb
  data_cb := c.data_cb

@[simp] theorem core_send (c : Client κ) : c.send.core = c.core := rfl

@[simp] theorem core_append (p : Packet) (build : Ringbuf → Ringbuf) (c : Client κ) :
    (c.append p build).core = c.core := rfl

@[simp] theorem calls_send (c : Client κ) : c.send.calls = c.calls := rfl

@[simp] theorem calls_append (p : Packet) (build : Ringbuf → Ringbuf) (c : Client κ) :
    (c.append p build).calls = c.calls := rfl

/-- The calls of a request's callback are not the others'. -/
def Call.isRequest : Call κ → Bool
  | request_cb .. => true
  | _ => false

/-- The callbacks called since, less those of the requests. -/
def NewCalls (c c' : Client κ) (calls : List (Call κ)) : Prop :=
  ∃ more, c'.calls = c.calls ++ more ∧ more.filter (fun call => !call.isRequest) = calls

theorem NewCalls.trans {c c' c'' : Client κ} {calls calls' : List (Call κ)}
    (h : NewCalls c c' calls) (h' : NewCalls c' c'' calls') : NewCalls c c'' (calls ++ calls') := by
  obtain ⟨more, hmore, rfl⟩ := h
  obtain ⟨more', hmore', rfl⟩ := h'
  exact ⟨more ++ more', by simp [hmore', hmore], by simp⟩

theorem NewCalls.of_eq {c c' : Client κ} (h : c'.calls = c.calls) : NewCalls c c' [] :=
  ⟨[], by simpa using h, rfl⟩

/-- What a part of a message comes to, as long as it does not change the connection. -/
structure Effect (c c' : Client κ) (calls : List (Call κ)) : Prop where
  core : c'.core = c.core
  calls : NewCalls c c' calls

namespace Effect

theorem refl (c : Client κ) : Effect c c [] := ⟨rfl, .of_eq rfl⟩

theorem trans {c c' c'' : Client κ} {calls calls' : List (Call κ)} (h : Effect c c' calls)
    (h' : Effect c' c'' calls') : Effect c c'' (calls ++ calls') :=
  ⟨h'.core.trans h.core, h.calls.trans h'.calls⟩

/-- An answer to the server is no call of a callback. -/
theorem quiet {c c' c'' : Client κ} {calls : List (Call κ)} (h : Effect c c' calls)
    (h' : Effect c' c'' []) : Effect c c'' calls := by
  have hboth := h.trans h'
  rwa [List.append_nil] at hboth

theorem record (c : Client κ) {calls : List (Call κ)}
    (hcalls : ∀ call ∈ calls, call.isRequest = false) : Effect c (c.record calls) calls := by
  refine ⟨rfl, calls, rfl, ?_⟩
  rw [List.filter_eq_self]
  intro call hcall
  simp [hcalls call hcall]

end Effect

/-! ## the parts of a PUBLISH -/

theorem respond_effect (msg : Response) (pkt_id : BitVec 16) (qos : Byte) (c : Client κ) :
    Effect c (pub_ack_rec_rel_response msg pkt_id qos c).2 [] := by
  unfold pub_ack_rec_rel_response
  split
  · exact ⟨by simp only [core_send, core_append], .of_eq (by simp only [calls_send, calls_append])⟩
  · exact Effect.refl c

/-- The call for the payload in a part of a PUBLISH. -/
def dataCalls (c : Client κ) (data : List Byte) (remaining_length : BitVec 32) : List (Call κ) :=
  if (data ≠ [] ∨ remaining_length = 0) ∧ c.data_cb then
    [.data_cb data (remaining_length = 0)]
  else
    []

theorem dataCalls_effect (c : Client κ) (data : List Byte) (remaining_length : BitVec 32)
    (hsome : data ≠ [] ∨ remaining_length = 0) :
    Effect c (if c.data_cb then c.record [.data_cb data (remaining_length = 0)] else c)
      (dataCalls c data remaining_length) := by
  unfold dataCalls
  by_cases hcb : c.data_cb
  · rw [if_pos hcb, if_pos ⟨hsome, hcb⟩]
    exact Effect.record c (by simp [Call.isRequest])
  · rw [if_neg hcb, if_neg fun h => hcb h.2]
    exact Effect.refl c

theorem receivePayload_effect (qos : Byte) (payload_offset payload_length : BitVec 16)
    {length : BitVec 16} (remaining_length : BitVec 32) {payload : List Byte} (c : Client κ)
    (hlen : payload.length = length.toNat)
    (hfits : payload_offset.toNat + payload_length.toNat = length.toNat) :
    ∃ c', receivePayload qos payload_offset payload_length length remaining_length payload c =
        (MQTT_CONNECT_ACCEPTED, c') ∧
      Effect c c' (dataCalls c (payload.drop payload_offset.toNat) remaining_length) := by
  have htake : (payload.drop payload_offset.toNat).take payload_length.toNat =
      payload.drop payload_offset.toNat := by
    rw [List.take_of_length_le]
    rw [List.length_drop]
    omega
  have hempty : 0 < payload_length ↔ payload.drop payload_offset.toNat ≠ [] := by
    rw [← List.length_pos_iff, List.length_drop, BitVec.lt_def]
    simp
    omega
  unfold receivePayload
  rw [htake]
  by_cases hsome : 0 < payload_length ∨ remaining_length = 0
  · rw [if_pos hsome, if_neg (by omega)]
    have hdata := dataCalls_effect c (payload.drop payload_offset.toNat) remaining_length
      (hsome.imp_left hempty.mp)
    dsimp only
    split
    · exact ⟨_, rfl, hdata.quiet (respond_effect ..)⟩
    · exact ⟨_, rfl, hdata⟩
  · rw [if_neg hsome]
    refine ⟨c, rfl, ?_⟩
    unfold dataCalls
    rw [if_neg fun h => hsome (h.1.imp_left hempty.mpr)]
    exact Effect.refl c

/-- The variable header of a PUBLISH, if its first part holds all of it. -/
def firstPart (qos : Byte) (fixed_hdr_len : BitVec 8) (length : BitVec 16) (payload : List Byte) :
    Option (List Byte × BitVec 16 × Nat) :=
  if length.toNat < 2 + if qos ≠ 0 then 2 else 0 then none
  else publishHeader qos fixed_hdr_len length payload

/-- The payload begins within the part. -/
theorem firstPart_le {qos : Byte} {fixed_hdr_len : BitVec 8} {length : BitVec 16}
    {payload topic : List Byte} {id : BitVec 16} {after_topic : Nat}
    (h : firstPart qos fixed_hdr_len length payload = some (topic, id, after_topic)) :
    after_topic ≤ length.toNat := by
  unfold firstPart publishHeader at h
  by_cases hqos : qos = 0
  · subst hqos
    grind
  · grind

section Publish

variable {fixed_hdr_len : BitVec 8} {length : BitVec 16} {payload : List Byte}
  (htype : MQTT_CTL_PACKET_TYPE (c.rx_buffer 0) = MQTT_MSG_TYPE_PUBLISH)
  (hspace : fixed_hdr_len.toNat + length.toNat ≤ MQTT_VAR_HEADER_BUFFER_LEN)
include htype hspace

theorem message_received_publish (remaining_length : BitVec 32)
    (var_hdr_payload : Option (List Byte)) :
    mqtt_message_received fixed_hdr_len length remaining_length var_hdr_payload c =
      receivePublish fixed_hdr_len length remaining_length var_hdr_payload c := by
  unfold mqtt_message_received
  dsimp only
  rw [htype, if_neg (by omega), if_neg (by decide), if_neg (by decide), if_pos rfl]

/-- A first part without the whole variable header. -/
theorem publish_short (remaining_length : BitVec 32)
    (hidx : c.msg_idx = fixed_hdr_len.setWidth 32 + length.setWidth 32)
    (hfirst : firstPart (MQTT_CTL_PACKET_QOS (c.rx_buffer 0)) fixed_hdr_len length payload = none) :
    mqtt_message_received fixed_hdr_len length remaining_length (some payload) c =
      some (MQTT_CONNECT_DISCONNECTED, c) := by
  rw [message_received_publish htype hspace]
  unfold receivePublish
  unfold firstPart at hfirst
  dsimp only
  rw [if_pos hidx]
  by_cases hshort : length.toNat < 2 + if MQTT_CTL_PACKET_QOS (c.rx_buffer 0) ≠ 0 then 2 else 0
  · rw [if_pos hshort]
  · rw [if_neg hshort] at hfirst ⊢
    rw [Option.map_some, hfirst]

/-- A first part with the variable header announces the message. -/
theorem publish_first (remaining_length : BitVec 32) (hlen : payload.length = length.toNat)
    (hidx : c.msg_idx = fixed_hdr_len.setWidth 32 + length.setWidth 32)
    {topic : List Byte} {id : BitVec 16} {after_topic : Nat}
    (hfirst : firstPart (MQTT_CTL_PACKET_QOS (c.rx_buffer 0)) fixed_hdr_len length payload =
      some (topic, id, after_topic)) :
    ∃ c', mqtt_message_received fixed_hdr_len length remaining_length (some payload) c =
        some (MQTT_CONNECT_ACCEPTED, c') ∧
      Effect c c' ((if c.pub_cb then [.pub_cb topic
          (remaining_length + (length - BitVec.ofNat 16 after_topic).setWidth 32)] else []) ++
        dataCalls c (payload.drop after_topic) remaining_length) := by
  have hle := firstPart_le hfirst
  have hlt := length.isLt
  have hoffset : (BitVec.ofNat 16 after_topic).toNat = after_topic := by
    rw [BitVec.toNat_ofNat, Nat.mod_eq_of_lt (by omega)]
  have hrest : (length - BitVec.ofNat 16 after_topic).toNat = length.toNat - after_topic := by
    rw [BitVec.toNat_sub, hoffset]
    omega
  rw [message_received_publish htype hspace]
  unfold receivePublish
  unfold firstPart at hfirst
  dsimp only
  rw [if_pos hidx]
  by_cases hshort : length.toNat < 2 + if MQTT_CTL_PACKET_QOS (c.rx_buffer 0) ≠ 0 then 2 else 0
  · rw [if_pos hshort] at hfirst
    cases hfirst
  rw [if_neg hshort] at hfirst ⊢
  rw [Option.map_some, hfirst]
  dsimp only
  have hid : Effect c { c with inpub_pkt_id := id } [] := ⟨rfl, .of_eq rfl⟩
  have hpub : Effect c (if c.pub_cb then
        { c with inpub_pkt_id := id }.record [.pub_cb topic
          (remaining_length + (length - BitVec.ofNat 16 after_topic).setWidth 32)]
      else { c with inpub_pkt_id := id })
      (if c.pub_cb then [.pub_cb topic
        (remaining_length + (length - BitVec.ofNat 16 after_topic).setWidth 32)] else []) := by
    split
    · exact hid.trans (Effect.record _ (by simp [Call.isRequest]))
    · exact hid
  generalize (if c.pub_cb then
        { c with inpub_pkt_id := id }.record [.pub_cb topic
          (remaining_length + (length - BitVec.ofNat 16 after_topic).setWidth 32)]
      else { c with inpub_pkt_id := id }) = c₁ at hpub ⊢
  obtain ⟨c', hc', heffect⟩ := receivePayload_effect (MQTT_CTL_PACKET_QOS (c.rx_buffer 0))
    (BitVec.ofNat 16 after_topic) (length - BitVec.ofNat 16 after_topic) remaining_length c₁ hlen
    (by rw [hoffset, hrest]; omega)
  have hcb : c₁.data_cb = c.data_cb := congrArg Core.data_cb hpub.core
  refine ⟨c', congrArg some hc', ?_⟩
  have hdata : dataCalls c₁ (payload.drop after_topic) remaining_length =
      dataCalls c (payload.drop after_topic) remaining_length := by
    unfold dataCalls
    rw [hcb]
  rw [hoffset, hdata] at heffect
  exact hpub.trans heffect

/-- A later part is payload. -/
theorem publish_later (remaining_length : BitVec 32) (hlen : payload.length = length.toNat)
    (hidx : c.msg_idx ≠ fixed_hdr_len.setWidth 32 + length.setWidth 32) :
    ∃ c', mqtt_message_received fixed_hdr_len length remaining_length (some payload) c =
        some (MQTT_CONNECT_ACCEPTED, c') ∧
      Effect c c' (dataCalls c payload remaining_length) := by
  rw [message_received_publish htype hspace]
  unfold receivePublish
  dsimp only
  rw [if_neg hidx, Option.map_some]
  obtain ⟨c', hc', heffect⟩ := receivePayload_effect (MQTT_CTL_PACKET_QOS (c.rx_buffer 0))
    0 length remaining_length c hlen (by simp)
  exact ⟨c', congrArg some hc', heffect⟩

end Publish

/-! ## the other messages -/

theorem receiveResponse_effect (pkt_type : Byte) (pkt_id length : BitVec 16) (payload : List Byte)
    (c : Client κ) :
    ∃ status c', receiveResponse pkt_type pkt_id length payload c = (status, c') ∧
      (status = MQTT_CONNECT_ACCEPTED ∨ status = MQTT_CONNECT_DISCONNECTED) ∧ Effect c c' [] := by
  have hrequests (done : List (Completion (Ticket κ))) (n : Nat) :
      (done.map fun d => Call.request_cb d.1 d.2 n).filter (fun call => !call.isRequest) = [] := by
    rw [List.filter_eq_nil_iff]
    intro call hcall
    obtain ⟨d, -, rfl⟩ := List.mem_map.mp hcall
    simp [Call.isRequest]
  unfold receiveResponse
  dsimp only
  split
  · exact ⟨_, _, rfl, Or.inl rfl, rfl, .of_eq rfl⟩
  rename_i r hr
  split
  · split
    · exact ⟨_, _, rfl, Or.inr rfl, rfl, .of_eq rfl⟩
    · exact ⟨_, _, rfl, Or.inl rfl, rfl, _, rfl, hrequests _ _⟩
  · exact ⟨_, _, rfl, Or.inl rfl, rfl, _, rfl, hrequests _ _⟩

theorem receiveIdentified_effect (pkt_type : Byte) (length : BitVec 16) (payload : List Byte)
    (c : Client κ) :
    ∃ status c', receiveIdentified pkt_type length (some payload) c = some (status, c') ∧
      (status = MQTT_CONNECT_ACCEPTED ∨ status = MQTT_CONNECT_DISCONNECTED) ∧ Effect c c' [] := by
  unfold receiveIdentified
  split
  · exact ⟨_, _, rfl, Or.inr rfl, Effect.refl c⟩
  rw [Option.map_some]
  dsimp only
  split
  · exact ⟨_, _, rfl, Or.inr rfl, Effect.refl c⟩
  split
  · exact ⟨_, _, rfl, Or.inl rfl, respond_effect ..⟩
  split
  · exact ⟨_, _, rfl, Or.inl rfl, respond_effect ..⟩
  split
  · obtain ⟨status, c', hres, hstatus, heffect⟩ :=
      receiveResponse_effect pkt_type (u16At payload 0) length payload c
    exact ⟨status, c', congrArg some hres, hstatus, heffect⟩
  · exact ⟨_, _, rfl, Or.inr rfl, Effect.refl c⟩

end Enc28j60.Mqtt
