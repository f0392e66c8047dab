import Enc28j60.Mqtt.Client

/-!
# Enc28j60.Mqtt.Writes

What the client appends to its output ring buffer are the packets of
`Enc28j60.Mqtt.Packet`, byte by byte.
-/

namespace Enc28j60.Mqtt

open App (LwipErr)

/-! ## the fixed header -/

theorem toNat_low_bits (r_length : BitVec 16) :
    ((r_length &&& 0x7f).setWidth 8 : Byte).toNat = r_length.toNat % 128 := by
  rw [BitVec.toNat_setWidth, BitVec.toNat_and,
    show (0x7f : BitVec 16).toNat = 2 ^ 7 - 1 from rfl, Nat.and_two_pow_sub_one_eq_mod]
  omega

/-- The remaining length field is a number in base 128. -/
theorem remainingLength_eq (r_length : BitVec 16) :
    remainingLength r_length = Base128.encode r_length.toNat := by
  induction r_length using remainingLength.induct with
  | case1 r_length h ih =>
      have hpos := shift_pos.mp h
      have hge : 128 ≤ r_length := by simpa [BitVec.le_def] using hpos
      have hbyte : ((r_length &&& 0x7f).setWidth 8 ||| (0x80 : Byte)) =
          BitVec.ofNat 8 (r_length.toNat % 128 + 128) := by
        apply BitVec.eq_of_toNat_eq
        rw [BitVec.toNat_or, toNat_low_bits, BitVec.toNat_ofNat, Nat.or_comm,
          show (0x80 : Byte).toNat = 2 ^ 7 * 1 from rfl,
          ← Nat.two_pow_add_eq_or_of_lt (by omega)]
        omega
      rw [remainingLength, dif_pos h, ih, toNat_shift, if_pos hge, hbyte]
      conv_rhs => rw [Base128.encode, if_neg (by omega)]
  | case2 r_length h =>
      have hlt : r_length.toNat < 128 := by
        rw [shift_pos] at h
        omega
      have hnge : ¬128 ≤ r_length := by simpa [BitVec.le_def] using hlt
      have hbyte : ((r_length &&& 0x7f).setWidth 8 ||| (0 : Byte)) =
          BitVec.ofNat 8 r_length.toNat := by
        apply BitVec.eq_of_toNat_eq
        rw [BitVec.toNat_or, toNat_low_bits, BitVec.toNat_ofNat,
          show (0 : Byte).toNat = 0 from rfl, Nat.or_zero]
        omega
      rw [remainingLength, dif_neg h, if_neg hnge, hbyte, Base128.encode, if_pos hlt]

/-- A message: its fixed header and its body. -/
theorem append_frame {msg_type fdup fqos fretain : Byte} {p : Packet} (rb : Ringbuf)
    (hcontrol : controlByte msg_type fdup fqos fretain = p.control)
    (hlen : p.body.length < 65536) :
    mqtt_output_append_buf p.body (mqtt_output_append_fixed_header msg_type fdup fqos fretain
      (BitVec.ofNat 16 p.body.length) rb) = mqtt_output_append_buf p.encode rb := by
  have hsize : (BitVec.ofNat 16 p.body.length).toNat = p.body.length := by simpa using hlen
  rw [append_fixed_header_eq, append_buf_append_buf, fixedHeader, remainingLength_eq, hsize,
    hcontrol]
  rfl

/-- The size that `mqtt_output_check_space` asks for is that of the message. -/
theorem messageSize_eq {p : Packet} (hlen : p.body.length < 65536) :
    messageSize (BitVec.ofNat 16 p.body.length) = p.encode.length := by
  have hsize : (BitVec.ofNat 16 p.body.length).toNat = p.body.length := by simpa using hlen
  rw [messageSize, remainingLength_eq, hsize, Packet.encode, Packet.frame, encodeFrame]
  simp
  omega

/-! ## the messages -/

theorem controlByte_publish {qos : Byte} (hqos : qos < 3) (retain : Byte)
    (topic payload : List Byte) (pkt_id : BitVec 16) :
    controlByte MQTT_MSG_TYPE_PUBLISH 0 qos retain =
      (Packet.publish topic payload qos (retain &&& 1 ≠ 0) pkt_id).control := by
  have hq : qos &&& 3 = qos := by
    have hall : ∀ qos : Byte, qos < 3 → qos &&& 3 = qos := by decide
    exact hall qos hqos
  have hr : (if decide (retain &&& 1 ≠ 0) then 1 else 0) = retain &&& 1 := by
    have hall : ∀ r : Byte, (if decide (r &&& 1 ≠ 0) then (1 : Byte) else 0) = r &&& 1 := by
      decide
    exact hall retain
  rw [Packet.control, hr, controlByte, hq]
  rfl

theorem Payload.length_bytes {payload : Payload} {payload_length : BitVec 16}
    (hpayload : payload = none → payload_length = 0) :
    (payload.bytes payload_length).length = payload_length.toNat := by
  cases payload with
  | none => simp [Payload.bytes, hpayload rfl]
  | some payload => simp [Payload.bytes]

theorem length_publish_body (topic payload : List Byte) (qos : Byte) (retain : Bool)
    (pkt_id : BitVec 16) :
    (Packet.publish topic payload qos retain pkt_id).body.length =
      2 + topic.length + payload.length + if 0 < qos then 2 else 0 := by
  simp only [Packet.body, List.length_append, length_stringBytes]
  split
  · simp only [length_u16Bytes]
    omega
  · simp

theorem appendPublish_eq {topic : List Byte} {payload : Payload} {payload_length : BitVec 16}
    {qos : Byte} (retain : Byte) (pkt_id : BitVec 16) (rb : Ringbuf) (hqos : qos < 3)
    (hpayload : payload = none → payload_length = 0)
    (hlen : 2 + topic.length + payload_length.toNat + (if 0 < qos then 2 else 0) ≤ 0xFFFF) :
    appendPublish topic payload payload_length qos retain pkt_id
      (BitVec.ofNat 16 (2 + topic.length + payload_length.toNat + if 0 < qos then 2 else 0)) rb =
      mqtt_output_append_buf (Packet.publish topic (payload.bytes payload_length) qos
        (retain &&& 1 ≠ 0) pkt_id).encode rb := by
  have hbytes := Payload.length_bytes hpayload
  have hbody := length_publish_body topic (payload.bytes payload_length) qos (retain &&& 1 ≠ 0)
    pkt_id
  rw [hbytes] at hbody
  have hlast (rb : Ringbuf) : (if payload.isSome ∧ 0 < payload_length then
      mqtt_output_append_buf (payload.bytes payload_length) rb else rb) =
      mqtt_output_append_buf (payload.bytes payload_length) rb := by
    split
    · rfl
    · rename_i hnone
      have hempty : payload.bytes payload_length = [] := by
        rw [← List.length_eq_zero_iff, hbytes]
        cases payload with
        | none => simp [hpayload rfl]
        | some payload => simpa [BitVec.lt_def] using hnone
      rw [hempty]
      rfl
  rw [← hbody] at hlen ⊢
  rw [← append_frame rb (controlByte_publish hqos retain _ _ _) (by omega)]
  simp only [appendPublish, hlast, Packet.body, append_string_eq, append_u16_eq]
  split <;> simp

theorem appendSubUnsub_eq {topic : List Byte} (qos : Byte) (sub : Bool) (pkt_id : BitVec 16)
    (rb : Ringbuf) (hlen : topic.length + 2 + 2 + (if sub then 1 else 0) ≤ 0xFFFF) :
    appendSubUnsub topic qos sub pkt_id
      (BitVec.ofNat 16 (topic.length + 2 + 2 + if sub then 1 else 0)) rb =
      mqtt_output_append_buf (if sub then
        Packet.subscribe pkt_id topic (if qos < 2 then qos else 2)
      else Packet.unsubscribe pkt_id topic).encode rb := by
  cases sub with
  | true =>
      have hbody : (Packet.subscribe pkt_id topic (if qos < 2 then qos else 2)).body.length =
          topic.length + 2 + 2 + 1 := by
        simp [Packet.body]
        omega
      simp only [if_true] at hlen ⊢
      rw [← hbody] at hlen ⊢
      have hcontrol : controlByte MQTT_MSG_TYPE_SUBSCRIBE 0 1 0 =
          (Packet.subscribe pkt_id topic (if qos < 2 then qos else 2)).control := rfl
      rw [← append_frame rb hcontrol (by omega)]
      simp [appendSubUnsub, Packet.body]
  | false =>
      have hbody : (Packet.unsubscribe pkt_id topic).body.length = topic.length + 2 + 2 + 0 := by
        simp [Packet.body]
        omega
      simp only [Bool.false_eq_true, if_false] at hlen ⊢
      rw [← hbody] at hlen ⊢
      have hcontrol : controlByte MQTT_MSG_TYPE_UNSUBSCRIBE 0 1 0 =
          (Packet.unsubscribe pkt_id topic).control := rfl
      rw [← append_frame rb hcontrol (by omega)]
      simp [appendSubUnsub, Packet.body]

theorem appendResponse_eq (msg : Response) {qos : Byte} (pkt_id : BitVec 16) (rb : Ringbuf)
    (hqos : controlByte msg.msg_type 0 qos 0 = msg.msg_type <<< 4 ||| msg.flags) :
    mqtt_output_append_u16 pkt_id (mqtt_output_append_fixed_header msg.msg_type 0 qos 0 2 rb) =
      mqtt_output_append_buf (Packet.response msg pkt_id).encode rb :=
  append_frame rb (show _ = (Packet.response msg pkt_id).control from hqos) (by simp [Packet.body])

theorem appendPing_eq (rb : Ringbuf) :
    mqtt_output_append_fixed_header MQTT_MSG_TYPE_PINGREQ 0 0 0 0 rb =
      mqtt_output_append_buf Packet.pingreq.encode rb :=
  append_frame rb (show _ = Packet.pingreq.control from rfl) (by simp [Packet.body])

/-! ## the CONNECT message -/

theorem addString_eq_some {least most len n : Nat} {str : Option (List Byte)}
    (h : addString least most str len = some n) :
    n = len + (optionalString str).length ∧ (∀ s ∈ str, n ≤ 0xFFFF) ∧
      ∀ s ∈ str, s.length ≤ most := by
  cases str with
  | none =>
      obtain rfl : len = n := by simpa [addString] using h
      simp [optionalString]
  | some str =>
      simp only [addString, Option.ite_none_right_eq_some, Option.some.injEq] at h
      obtain ⟨⟨-, hmost, hle⟩, rfl⟩ := h
      simp [optionalString, Nat.add_assoc]
      omega

/-- `remaining_length` is the length of the body, and fits its type. -/
theorem connectLength_eq {info : ConnectInfo} {len : Nat} (h : connectLength info = some len) :
    len = info.packet.body.length ∧ len ≤ 0xFFFF ∧ info.packet.Valid := by
  simp only [connectLength, Option.bind_eq_bind, Option.bind_eq_some_iff] at h
  obtain ⟨n₁, h₁, n₂, h₂, n₃, h₃, n₄, h₄, h₅⟩ := h
  obtain ⟨rfl, -, htopic⟩ := addString_eq_some h₁
  obtain ⟨rfl, -, hmsg⟩ := addString_eq_some h₂
  obtain ⟨rfl, -, huser⟩ := addString_eq_some h₃
  obtain ⟨rfl, -, hpass⟩ := addString_eq_some h₄
  obtain ⟨rfl, hle, hid⟩ := addString_eq_some h₅
  have hqos : ∀ w ∈ info.will, w.qos < 4 := by
    have hall : ∀ q : Byte, q &&& 3 < 4 := by decide
    intro w hw
    unfold ConnectInfo.will at hw
    split at hw
    · cases hw
      exact hall _
    · simp at hw
  refine ⟨?_, hle _ rfl, ?_⟩
  · simp [ConnectInfo.packet, Packet.body, optionalString, protocolName]
    omega
  · refine ⟨?_, fun s hs => ?_, fun s hs => ?_, fun w hw => ⟨?_, ?_, hqos w hw⟩⟩
    · have := hid _ rfl
      omega
    · have := huser s hs
      omega
    · have := hpass s hs
      omega
    · have := htopic w.topic (by rw [hw]; rfl)
      omega
    · have := hmsg w.msg (by rw [hw]; rfl)
      omega

theorem connectFlags_eq (info : ConnectInfo) :
    connectFlags info = connectFlagsOf info.will info.client_user info.client_pass := by
  unfold connectFlags connectFlagsOf ConnectInfo.will
  split <;> simp

theorem appendOptional_eq (str : Option (List Byte)) (rb : Ringbuf) :
    appendOptional str rb = mqtt_output_append_buf (optionalString str) rb := by
  cases str with
  | none => rfl
  | some str => simp [appendOptional, optionalString]

theorem appendConnect_eq {info : ConnectInfo} {len : Nat} (rb : Ringbuf)
    (h : connectLength info = some len) :
    appendConnect info (BitVec.ofNat 16 len) rb =
      mqtt_output_append_buf info.packet.encode rb := by
  obtain ⟨rfl, hle, -⟩ := connectLength_eq h
  have hcontrol : controlByte MQTT_MSG_TYPE_CONNECT 0 0 0 = info.packet.control := rfl
  rw [← append_frame rb hcontrol (by omega)]
  simp only [appendConnect, appendOptional_eq, connectFlags_eq, append_string_eq, append_u8_eq,
    append_u16_eq, append_fixed_header_eq, append_buf_append_buf]
  simp [ConnectInfo.packet, Packet.body]

end Enc28j60.Mqtt
