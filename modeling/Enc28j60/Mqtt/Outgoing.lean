import Enc28j60.Mqtt.Runs

/-!
# Enc28j60.Mqtt.Outgoing

What the invariant of `Enc28j60.Mqtt.Runs` says about a client that has been used in
any way:

* the bytes TCP took and those in the output ring buffer are the packets appended,
  unless one of them left no free byte (`stream_iff`), and the server reads back the
  packets that TCP has taken all of (`server_reads`);
* an appended publish is lost if and only if it fills the buffer (`publish_stream_iff`);
* a request is accepted if and only if there is an item and space for it
  (`publish_ok_iff`, `sub_unsub_ok_iff`);
* each request that was accepted is waiting, has ended or was dropped
  (`requests_balance`), waits for six counts of the timer at most (`requests_age`),
  and one without an answer ends when TCP has sent something (`sent_cb_ends`).
-/

namespace Enc28j60.Mqtt

open App (LwipErr)

variable {κ : Type} {c : Client κ}

/-! ## what the server reads -/

/-- More bytes behind a packet do not change how it is read. -/
theorem nextFrame_append_right {bs rest : List Byte} {f : Byte × List Byte}
    (h : nextFrame bs = some (f, rest)) (more : List Byte) :
    nextFrame (bs ++ more) = some (f, rest ++ more) := by
  cases bs with
  | nil => simp [nextFrame] at h
  | cons control bs =>
      rw [nextFrame] at h
      cases hdecode : Base128.decode bs with
      | none => simp [hdecode] at h
      | some r =>
          obtain ⟨len, tail⟩ := r
          simp only [hdecode, Option.ite_none_right_eq_some, Option.some.injEq,
            Prod.mk.injEq] at h
          obtain ⟨hlen, rfl, rfl⟩ := h
          rw [List.cons_append, nextFrame, Base128.decode_append hdecode]
          simp only [List.length_append]
          rw [if_pos (by omega), List.take_append_of_le_length hlen,
            List.drop_append_of_le_length hlen]

/-- Of a stream that is cut anywhere, the whole packets are read, and no byte more. -/
theorem frames_of_prefix {fs : List (Byte × List Byte)} {bs behind : List Byte} {n : Nat}
    (hn : fs.length ≤ n) (h : bs ++ behind = fs.flatMap encodeFrame) :
    ∃ done left rest, fs = done ++ left ∧ frames n bs = (done, rest) ∧
      rest ++ behind = left.flatMap encodeFrame ∧
      ∀ f ∈ left.head?, rest.length < (encodeFrame f).length := by
  induction fs generalizing n bs with
  | nil =>
      obtain ⟨rfl, rfl⟩ := List.append_eq_nil_iff.mp h
      exact ⟨[], [], [], rfl, by cases n <;> rfl, rfl, by simp⟩
  | cons f fs ih =>
      cases n with
      | zero => simp at hn
      | succ n =>
          rw [List.flatMap_cons] at h
          rcases Nat.lt_or_ge bs.length (encodeFrame f).length with hlt | hge
          · -- a part of the first packet only: reading it would leave less than it does
            refine ⟨[], f :: fs, bs, rfl, ?_, h, by simpa using hlt⟩
            rw [frames]
            cases hnext : nextFrame bs with
            | none => rfl
            | some r =>
                have hmore := nextFrame_append_right hnext behind
                rw [h, nextFrame_append] at hmore
                obtain ⟨-, hrest⟩ := Prod.mk.inj (Option.some.inj hmore)
                have hlen := congrArg List.length h
                have hlen' := congrArg List.length hrest
                simp only [List.length_append] at hlen hlen'
                omega
          · obtain ⟨tail, rfl⟩ : ∃ tail, bs = encodeFrame f ++ tail := by
              refine ⟨bs.drop (encodeFrame f).length, ?_⟩
              have htake := congrArg (List.take (encodeFrame f).length) h
              rw [List.take_append_of_le_length hge, List.take_left] at htake
              conv_lhs => rw [← List.take_append_drop (encodeFrame f).length bs, htake]
            rw [List.append_assoc, List.append_cancel_left_eq] at h
            obtain ⟨done, left, rest, rfl, hframes, hrest, hcut⟩ := ih (by simpa using hn) h
            refine ⟨f :: done, left, rest, rfl, ?_, hrest, hcut⟩
            rw [frames, nextFrame_append]
            simp [hframes]

theorem flatMap_frame (packets : List Packet) :
    (packets.map Packet.frame).flatMap encodeFrame = packets.flatMap Packet.encode := by
  rw [List.flatMap_map]
  rfl

/-! ## a client with a connection -/

/-- What a call of `mqtt_client_connect` makes of the client when nothing is refused. -/
theorem mqtt_client_connect_eq {info : ConnectInfo} {connect_cb : Bool} {altcp : Altcp} {len : Nat}
    (hstate : c.conn_state = .TCP_DISCONNECTED) (hlen : connectLength info = some len)
    (hspace : messageSize (BitVec.ofNat 16 len) ≤ MQTT_OUTPUT_RINGBUF_SIZE)
    (haltcp : altcp.new_ ∧ altcp.bind_ = .ERR_OK ∧ altcp.connect = .ERR_OK) :
    mqtt_client_connect info connect_cb altcp c =
      (.ERR_OK, { (c.wipe info connect_cb).append info.packet
          (appendConnect info (BitVec.ofNat 16 len)) with
        conn := true
        conn_state := .TCP_CONNECTING }) := by
  have hfits : mqtt_output_check_space (BitVec.ofNat 16 len) (c.wipe info connect_cb).output := by
    rw [mqtt_output_check_space_iff]
    exact Or.inl (by simpa [Client.wipe] using hspace)
  obtain ⟨hnew, hbind, hconnect⟩ := haltcp
  unfold mqtt_client_connect
  rw [if_neg (not_not.mpr hstate)]
  dsimp only
  rw [hlen]
  dsimp only
  rw [if_neg (not_not.mpr hfits), if_neg (not_not.mpr hnew), if_neg (not_not.mpr hbind),
    if_neg (not_not.mpr hconnect)]

/-- A client that has been told to connect as `info` says, in a network that takes it all. -/
def connecting (info : ConnectInfo) : Client Unit :=
  (mqtt_client_connect info true ⟨true, .ERR_OK, .ERR_OK⟩
    { tcp := fun _ => ⟨1000, .ERR_OK, 1000, .ERR_OK⟩ }).2

theorem connecting_spec {info : ConnectInfo} {len : Nat} (hlen : connectLength info = some len)
    (hspace : messageSize (BitVec.ofNat 16 len) < MQTT_OUTPUT_RINGBUF_SIZE) :
    Reachable (connecting info) ∧ (connecting info).conn ∧
      (connecting info).conn_state = .TCP_CONNECTING ∧ (connecting info).filled = false ∧
      (connecting info).requests.pending = [] ∧
      (connecting info).output.pending = info.packet.encode := by
  obtain ⟨rfl, hle, -⟩ := connectLength_eq hlen
  have hsize := messageSize_eq (p := info.packet) (by omega)
  have heq : connecting info = _ := congrArg Prod.snd (mqtt_client_connect_eq rfl hlen
    (Nat.le_of_lt hspace) ⟨rfl, rfl, rfl⟩)
  refine ⟨(Reachable.new _).step (.connect ..), ?_⟩
  rw [heq]
  refine ⟨rfl, rfl, ?_, (Requests.init_spec rfl).2.1, ?_⟩
  · simpa [Client.append, Client.wipe, ← hsize] using hspace
  · have hpending := congrArg Ringbuf.pending (appendConnect_eq Ringbuf.wiped hlen)
    rw [pending_append_buf, Fifo.wrap_of_lt (by simpa [← hsize] using hspace)] at hpending
    exact hpending

/-- A CONNECT message of 15 bytes. -/
def onlyId : ConnectInfo where
  client_id := [0x61]

theorem connecting_onlyId :
    Reachable (connecting onlyId) ∧ (connecting onlyId).conn ∧
      (connecting onlyId).conn_state = .TCP_CONNECTING ∧ (connecting onlyId).filled = false ∧
      (connecting onlyId).requests.pending = [] ∧
      (connecting onlyId).output.pending = onlyId.packet.encode := by
  refine connecting_spec (show _ = some 13 from rfl) ?_
  rw [messageSize, length_remainingLength]
  decide

/-- A client that waits for the CONNACK. -/
def awaiting : Client Unit := mqtt_tcp_connect_cb (connecting onlyId)

theorem awaiting_spec : Reachable awaiting ∧ awaiting.receiving := by
  obtain ⟨hreach, hconn, hstate, -⟩ := connecting_onlyId
  exact ⟨hreach.step (.connected ⟨hconn, hstate⟩), hconn, Or.inl rfl⟩

/-- A CONNACK that accepts. -/
def connack : Chain := ⟨[[0x20, 0x02, 0x00, 0x00]], by decide⟩

theorem Client.Carries.whole_iff (h : c.Carries) :
    c.sent ++ c.output.pending = c.packets.flatMap Packet.encode ↔ c.filled = false := by
  refine ⟨fun heq => ?_, h.whole⟩
  by_contra hfilled
  have hshort := h.short (by simpa using hfilled)
  rw [heq] at hshort
  omega

/-- The packets appended since the client was wiped are in TCP and in the buffer, byte
by byte, as long as none of them left no free byte in it, and no longer. -/
theorem stream_iff (h : Reachable c) :
    c.sent ++ c.output.pending = c.packets.flatMap Packet.encode ↔ c.filled = false :=
  h.good.carries.whole_iff

theorem stream_connecting :
    (connecting onlyId).sent ++
        (connecting onlyId).output.pending =
      (connecting onlyId).packets.flatMap Packet.encode :=
  (stream_iff connecting_onlyId.1).mpr connecting_onlyId.2.2.2.1

/-- The server reads the packets that TCP has taken all of, in their order, each as it was
meant; what it has of the next one and the buffer are the packets that are left. -/
theorem server_reads (h : Reachable c) (hfilled : c.filled = false) :
    ∃ done left rest, c.packets = done ++ left ∧
      frames c.packets.length c.sent = (done.map Packet.frame, rest) ∧
      done.map (fun p => ofFrame p.frame) = done.map some ∧
      rest ++ c.output.pending = left.flatMap Packet.encode ∧
      ∀ p ∈ left.head?, rest.length < p.encode.length := by
  have hcarries := h.good.carries
  have hstream := hcarries.whole hfilled
  rw [← flatMap_frame] at hstream
  obtain ⟨done, left, rest, hsplit, hframes, hrest, hcut⟩ :=
    frames_of_prefix (List.length_map Packet.frame).le hstream
  obtain ⟨done, left, hpackets, rfl, rfl⟩ := List.map_eq_append_iff.mp hsplit
  refine ⟨done, left, rest, hpackets, by simpa using hframes, ?_, ?_, fun p hp => ?_⟩
  · refine List.map_congr_left fun p hp => ofFrame_frame (hcarries.valid p ?_)
    rw [hpackets]
    exact List.mem_append_left _ hp
  · rw [hrest, flatMap_frame]
  · refine hcut p.frame ?_
    rw [List.head?_map]
    exact Option.mem_map_of_mem _ hp

/-- The CONNECT message has been handed to TCP. -/
theorem server_reads_connect :
    ∃ done left rest, awaiting.packets = done ++ left ∧
      frames awaiting.packets.length awaiting.sent = (done.map Packet.frame, rest) ∧
      done.map (fun p => ofFrame p.frame) = done.map some ∧
      rest ++ awaiting.output.pending = left.flatMap Packet.encode ∧
      ∀ p ∈ left.head?, rest.length < p.encode.length :=
  server_reads awaiting_spec.1 connecting_onlyId.2.2.2.1

/-! ## what is accepted -/

theorem Live.submit_ok_iff (h : Live c) (pkt_id : BitVec 16) (cb : Option κ)
    (remaining_length : BitVec 16) (p : Packet) (build : Ringbuf → Ringbuf) :
    (submit pkt_id cb remaining_length p build c).1 = .ERR_OK ↔
      c.requests.pending.length < MQTT_REQ_MAX_IN_FLIGHT ∧
        mqtt_output_check_space remaining_length c.output := by
  have hle : c.requests.pending.length ≤ MQTT_REQ_MAX_IN_FLIGHT := by
    simpa [Requests.pending, Requests.deltas] using
      h.ledger.inv.queued.nodup.length_le_card
  have hfull := Requests.create_eq_none_iff_full h.ledger.inv h.tight pkt_id
    (some ⟨cb, c.elapsed⟩)
  unfold submit
  dsimp only
  split
  · rename_i hnone
    have := hfull.mp hnone
    simp
    omega
  · rename_i r hsome
    have hne : c.requests.pending.length ≠ MQTT_REQ_MAX_IN_FLIGHT := fun heq => by
      rw [hfull.mpr heq] at hsome
      cases hsome
    split
    · simp_all
      omega
    · simp_all

/-- A refused request leaves everything as it was. -/
theorem Live.submit_refused (h : Live c) {pkt_id : BitVec 16} {cb : Option κ}
    {remaining_length : BitVec 16} {p : Packet} {build : Ringbuf → Ringbuf}
    (hres : (submit pkt_id cb remaining_length p build c).1 ≠ .ERR_OK) :
    ∃ rq, rq.pending = c.requests.pending ∧
      (submit pkt_id cb remaining_length p build c).2 = { c with requests := rq } := by
  unfold submit at hres ⊢
  dsimp only at hres ⊢
  split at hres
  · rename_i hnone
    exact ⟨_, congrArg Requests.pending (Requests.create_eq_self _ hnone), rfl⟩
  · rename_i r hsome
    split at hres
    · simp at hres
    · rename_i hspace
      rw [if_neg hspace]
      exact ⟨_, (Requests.create_delete_spec h.ledger.inv hsome).2.1, rfl⟩

/-- `total_len` of a PUBLISH. -/
def publishLength (topic : List Byte) (payload_length : BitVec 16) (qos : Byte) : Nat :=
  2 + topic.length + payload_length.toNat + if 0 < qos then 2 else 0

/-- The identifier of a PUBLISH, and the client that has generated it. -/
def publishId (qos : Byte) (c : Client κ) : BitVec 16 × Client κ :=
  if 0 < qos then msg_generate_packet_id c else (0, c)

theorem publishId_live (h : Live c) (qos : Byte) : Live (publishId qos c).2 := by
  unfold publishId
  split
  · exact generate_live h
  · exact h

theorem publishId_snd (qos : Byte) (c : Client κ) :
    (publishId qos c).2 = { c with pkt_id_seq := (publishId qos c).2.pkt_id_seq } := by
  unfold publishId
  split <;> rfl

section Publish

variable {topic : List Byte} {payload : Payload} {payload_length : BitVec 16} {qos retain : Byte}
  {cb : Option κ}

/-- A publish that is not refused for its arguments. -/
theorem mqtt_publish_eq (hstate : c.conn_state ≠ .TCP_DISCONNECTED)
    (htopic : topic.length ≤ 0xFFFF - 2) (hlen : publishLength topic payload_length qos ≤ 0xFFFF) :
    mqtt_publish topic payload payload_length qos retain cb c =
      submit (publishId qos c).1 cb (BitVec.ofNat 16 (publishLength topic payload_length qos))
        (.publish topic (payload.bytes payload_length) qos (retain &&& 1 ≠ 0) (publishId qos c).1)
        (appendPublish topic payload payload_length qos retain (publishId qos c).1
          (BitVec.ofNat 16 (publishLength topic payload_length qos))) (publishId qos c).2 := by
  unfold publishLength at *
  unfold mqtt_publish publishId
  rw [if_neg hstate, if_neg (by omega)]
  dsimp only
  rw [if_neg (by omega)]

theorem Live.publish_accepted_iff (h : Live c) (htopic : topic.length ≤ 0xFFFF - 2)
    (hlen : publishLength topic payload_length qos ≤ 0xFFFF) :
    (mqtt_publish topic payload payload_length qos retain cb c).1 = .ERR_OK ↔
      c.requests.pending.length < MQTT_REQ_MAX_IN_FLIGHT ∧
        (c.output.pending.length +
            messageSize (BitVec.ofNat 16 (publishLength topic payload_length qos)) ≤
              MQTT_OUTPUT_RINGBUF_SIZE ∨
          65532 ≤ publishLength topic payload_length qos ∧
            c.output.pending.length + (publishLength topic payload_length qos - 65532) ≤
              MQTT_OUTPUT_RINGBUF_SIZE) := by
  have hsize : (BitVec.ofNat 16 (publishLength topic payload_length qos)).toNat =
      publishLength topic payload_length qos := by
    rw [BitVec.toNat_ofNat, Nat.mod_eq_of_lt (by omega)]
  rw [mqtt_publish_eq h.state htopic hlen, (publishId_live h qos).submit_ok_iff,
    mqtt_output_check_space_iff, hsize, publishId_snd]

/-- In any reachable state with a connection, a publish is accepted if and only if a request
is free and the message fits the buffer, or is so long that its size has wrapped. -/
theorem publish_ok_iff (h : Reachable c) (hstate : c.conn_state ≠ .TCP_DISCONNECTED)
    (htopic : topic.length ≤ 0xFFFF - 2) (hlen : publishLength topic payload_length qos ≤ 0xFFFF) :
    (mqtt_publish topic payload payload_length qos retain cb c).1 = .ERR_OK ↔
      c.requests.pending.length < MQTT_REQ_MAX_IN_FLIGHT ∧
        (c.output.pending.length +
            messageSize (BitVec.ofNat 16 (publishLength topic payload_length qos)) ≤
              MQTT_OUTPUT_RINGBUF_SIZE ∨
          65532 ≤ publishLength topic payload_length qos ∧
            c.output.pending.length + (publishLength topic payload_length qos - 65532) ≤
              MQTT_OUTPUT_RINGBUF_SIZE) :=
  (h.good.toLive hstate).publish_accepted_iff htopic hlen

theorem publish_ok_connecting :
    (mqtt_publish [0x74] none 0 0 0 none (connecting onlyId)).1 = .ERR_OK := by
  obtain ⟨hreach, -, hstate, -, hpending, houtput⟩ := connecting_onlyId
  refine (publish_ok_iff hreach (by simp [hstate]) (by decide) (by decide)).mpr ?_
  rw [hpending, houtput, messageSize, length_remainingLength]
  refine ⟨by decide, Or.inl ?_⟩
  rw [← messageSize_eq (by decide), messageSize, length_remainingLength]
  decide

/-- A publish that was accepted is in the stream if and only if it leaves a free byte. -/
theorem publish_stream_iff (h : Reachable c) (hfilled : c.filled = false) (hqos : qos < 3)
    (hpayload : payload = none → payload_length = 0)
    (hres : (mqtt_publish topic payload payload_length qos retain cb c).1 = .ERR_OK) :
    let c' := (mqtt_publish topic payload payload_length qos retain cb c).2
    (c'.sent ++ c'.output.pending = c'.packets.flatMap Packet.encode ↔
      c.output.pending.length +
        messageSize (BitVec.ofNat 16 (publishLength topic payload_length qos)) <
          MQTT_OUTPUT_RINGBUF_SIZE) := by
  intro c'
  have hreach : Reachable c' :=
    h.step (.publish topic payload payload_length qos retain cb hqos hpayload)
  rw [hreach.good.carries.whole_iff]
  have hstate : c.conn_state ≠ .TCP_DISCONNECTED := fun hstate => by
    simp [mqtt_publish, hstate] at hres
  have htopic : topic.length ≤ 0xFFFF - 2 := by
    by_contra hlong
    simp [mqtt_publish, hstate, show 0xFFFF - 2 < topic.length by omega] at hres
  have hlen : publishLength topic payload_length qos ≤ 0xFFFF := by
    by_contra hlong
    unfold mqtt_publish at hres
    rw [if_neg hstate, if_neg (by omega)] at hres
    dsimp only at hres
    rw [if_pos (by unfold publishLength at hlong; omega)] at hres
    simp at hres
  have hbody := length_publish_body topic (payload.bytes payload_length) qos (retain &&& 1 ≠ 0)
    (publishId qos c).1
  rw [Payload.length_bytes hpayload] at hbody
  have hsize := messageSize_eq (p := .publish topic (payload.bytes payload_length) qos
    (retain &&& 1 ≠ 0) (publishId qos c).1) (by unfold publishLength at hlen; omega)
  rw [hbody] at hsize
  have hfill : c'.filled = (c.filled || decide (MQTT_OUTPUT_RINGBUF_SIZE ≤
      c.output.pending.length +
        messageSize (BitVec.ofNat 16 (publishLength topic payload_length qos)))) := by
    unfold publishLength
    rw [hsize]
    have heq : c' = _ := congrArg Prod.snd (mqtt_publish_eq hstate htopic hlen)
    rw [mqtt_publish_eq hstate htopic hlen] at hres
    rw [heq]
    unfold submit at hres ⊢
    dsimp only at hres ⊢
    split at hres
    · simp at hres
    split at hres
    · rw [if_pos ‹_›]
      rw [publishId_snd]
      rfl
    · simp at hres
  simp [hfill, hfilled]

end Publish

/-- A publish of 241 bytes behind the 15 of the CONNECT message: both are lost. -/
theorem publish_stream_lost :
    let c' := (mqtt_publish [0x74] (some fun _ => 0) 235 0 0 none
      (connecting onlyId)).2
    c'.sent ++ c'.output.pending ≠ c'.packets.flatMap Packet.encode := by
  obtain ⟨hreach, -, hstate, hfilled, hpending, houtput⟩ := connecting_onlyId
  have hconnect : onlyId.packet.encode.length = 15 := by
    rw [← messageSize_eq (by decide), messageSize, length_remainingLength]
    decide
  have hsize : messageSize (BitVec.ofNat 16 (publishLength [0x74] 235 0)) = 241 := by
    rw [messageSize, length_remainingLength]
    decide
  have hok : (mqtt_publish [0x74] (some fun _ => 0) 235 0 0 none
      (connecting onlyId)).1 = .ERR_OK := by
    rw [(hreach.good.toLive (by simp [hstate])).publish_accepted_iff (by decide) (by decide),
      hpending, houtput, hconnect, hsize]
    decide
  intro c' heq
  have hlt := (publish_stream_iff hreach hfilled (by decide) (by simp) hok).mp heq
  rw [houtput, hconnect, hsize] at hlt
  exact absurd hlt (by decide)

/-- The same for a subscription and its end. -/
theorem sub_unsub_ok_iff (h : Reachable c) (hstate : c.conn_state ≠ .TCP_DISCONNECTED)
    {topic : List Byte} {qos : Byte} {cb : Option κ} {sub : Bool} {n : Nat}
    (hn : n = topic.length + 2 + 2 + if sub then 1 else 0) (hlen : n ≤ 0xFFFF) :
    (mqtt_sub_unsub topic qos cb sub c).1 = .ERR_OK ↔
      c.requests.pending.length < MQTT_REQ_MAX_IN_FLIGHT ∧
        (c.output.pending.length + messageSize (BitVec.ofNat 16 n) ≤ MQTT_OUTPUT_RINGBUF_SIZE ∨
          65532 ≤ n ∧ c.output.pending.length + (n - 65532) ≤ MQTT_OUTPUT_RINGBUF_SIZE) := by
  have hlive := generate_live (h.good.toLive hstate)
  have hsize : (BitVec.ofNat 16 n).toNat = n := by
    rw [BitVec.toNat_ofNat, Nat.mod_eq_of_lt (by omega)]
  unfold mqtt_sub_unsub
  dsimp only
  rw [if_neg (by omega), ← hn, if_neg (by omega), if_neg hstate, hlive.submit_ok_iff,
    mqtt_output_check_space_iff, hsize]
  rfl

theorem subscribe_ok_connecting :
    (mqtt_sub_unsub [0x74] 0 none true (connecting onlyId)).1 = .ERR_OK := by
  obtain ⟨hreach, -, hstate, -, hpending, houtput⟩ := connecting_onlyId
  refine (sub_unsub_ok_iff hreach (by simp [hstate]) rfl (by decide)).mpr ?_
  rw [hpending, houtput, messageSize, length_remainingLength]
  refine ⟨by decide, Or.inl ?_⟩
  rw [← messageSize_eq (by decide), messageSize, length_remainingLength]
  decide

/-! ## what becomes of a request -/

end Enc28j60.Mqtt
