import Enc28j60.Mqtt.Ledger
import Enc28j60.Mqtt.Writes

/-!
# Enc28j60.Mqtt.Runs

What can happen to an MQTT client, in any order: calls of the application, calls of
its callbacks by TCP, its timer.

`Step` is one of these, `Reachable` what any number of them leads to from a new
client, and `Good` what holds in each reachable state: the output ring buffer and
TCP hold the packets that were appended (`Carries`), the requests are accounted for
(`Ledger`), and a client without a connection has none of them.
-/

namespace Enc28j60.Mqtt

open App (LwipErr ClientState Status MQTT_CONNECT_ACCEPTED MQTT_CONNECT_DISCONNECTED
  MQTT_CONNECT_TIMEOUT)

variable {κ : Type}

/-! ## steps -/

/-- `mqtt_tcp_connect_cb` has set the callbacks of the connection. -/
def Client.receiving (c : Client κ) : Prop :=
  c.conn ∧ (c.conn_state = .MQTT_CONNECTING ∨ c.conn_state = .MQTT_CONNECTED)

/-- One call.  The two premises of `publish` are those of its documentation: a quality of
service of 0, 1 or 2, and no payload without a pointer to it.  TCP delivers no more than a
window at once. -/
inductive Step : Client κ → Client κ → Prop
  | publish {c : Client κ} (topic : List Byte) (payload : Payload) (payload_length : BitVec 16)
      (qos retain : Byte) (cb : Option κ) (hqos : qos < 3)
      (hpayload : payload = none → payload_length = 0) :
      Step c (mqtt_publish topic payload payload_length qos retain cb c).2
  | sub_unsub {c : Client κ} (topic : List Byte) (qos : Byte) (cb : Option κ) (sub : Bool) :
      Step c (mqtt_sub_unsub topic qos cb sub c).2
  | set_inpub_callback {c : Client κ} (pub_cb data_cb : Bool) :
      Step c (mqtt_set_inpub_callback pub_cb data_cb c)
  | connect {c : Client κ} (info : ConnectInfo) (connect_cb : Bool) (altcp : Altcp) :
      Step c (mqtt_client_connect info connect_cb altcp c).2
  | disconnect {c : Client κ} : Step c (mqtt_disconnect c)
  | timer {c : Client κ} : Step c (mqtt_cyclic_timer c)
  | connected {c : Client κ} (h : c.conn ∧ c.conn_state = .TCP_CONNECTING) :
      Step c (mqtt_tcp_connect_cb c)
  | recv {c : Client κ} (h : c.receiving) (p : Chain) (hwnd : p.bytes.length ≤ TCP_WND)
      (res : Status × Client κ) (hres : mqtt_parse_incoming p c res) : Step c (afterParse res)
  | fin {c : Client κ} (h : c.receiving) : Step c (mqtt_close MQTT_CONNECT_DISCONNECTED c)
  | sent {c : Client κ} (h : c.receiving) : Step c (mqtt_tcp_sent_cb c)
  | poll {c : Client κ} (h : c.receiving) : Step c (mqtt_tcp_poll_cb c)
  | err {c : Client κ} (h : c.conn) : Step c (mqtt_tcp_err_cb c)
  /-- The network: what TCP will answer changes. -/
  | net {c : Client κ} (tcp : Nat → Tcp) : Step c { c with tcp := tcp }

/-- A new client, as `mqtt_client_new` makes it, and what becomes of it. -/
inductive Reachable : Client κ → Prop
  | new (tcp : Nat → Tcp) : Reachable { tcp := tcp }
  | step {c c' : Client κ} (h : Reachable c) (hs : Step c c') : Reachable c'

/-! ## the output -/

/-- The packets are what TCP took and what is pending, unless one of them left no free
byte: then some of it is missing. -/
structure Carries (output : Ringbuf) (sent : List Byte) (packets : List Packet) (filled : Bool) :
    Prop where
  valid : ∀ p ∈ packets, p.Valid
  whole : filled = false → sent ++ output.pending = packets.flatMap Packet.encode
  short : filled = true →
    (sent ++ output.pending).length < (packets.flatMap Packet.encode).length

def Client.Carries (c : Client κ) : Prop := Mqtt.Carries c.output c.sent c.packets c.filled

theorem Client.Carries.append {c : Client κ} (h : c.Carries) {p : Packet}
    {build : Ringbuf → Ringbuf} (hp : p.Valid)
    (hbuild : build c.output = mqtt_output_append_buf p.encode c.output) :
    (c.append p build).Carries := by
  have hpending : (build c.output).pending =
      Fifo.wrap MQTT_OUTPUT_RINGBUF_SIZE (c.output.pending ++ p.encode) := by
    rw [hbuild, pending_append_buf]
  have hlen : (build c.output).pending.length =
      (c.output.pending.length + p.encode.length) % MQTT_OUTPUT_RINGBUF_SIZE := by
    rw [hpending, Fifo.length_wrap, List.length_append]
  have hmod := Nat.mod_le (c.output.pending.length + p.encode.length) MQTT_OUTPUT_RINGBUF_SIZE
  refine ⟨?_, fun hfilled => ?_, fun hfilled => ?_⟩
  · intro q hq
    rcases List.mem_append.mp hq with hq | hq
    · exact h.valid q hq
    · rw [List.mem_singleton.mp hq]
      exact hp
  · simp only [Client.append, Bool.or_eq_false_iff, decide_eq_false_iff_not, Nat.not_le] at hfilled
    simp only [Client.append, hpending]
    rw [Fifo.wrap_of_lt (by simpa using hfilled.2), ← List.append_assoc, h.whole hfilled.1]
    simp
  · simp only [Client.append, Bool.or_eq_true, decide_eq_true_eq] at hfilled
    simp only [Client.append, List.length_append, hlen, List.flatMap_append, List.flatMap_cons,
      List.flatMap_nil, List.append_nil]
    cases hc : c.filled with
    | true =>
        have := h.short hc
        simp only [List.length_append] at this
        omega
    | false =>
        have hfull := hfilled.resolve_left (by simp [hc])
        have hwhole := congrArg List.length (h.whole hc)
        simp only [List.length_append] at hwhole
        have := Nat.mod_lt (c.output.pending.length + p.encode.length)
          (show 0 < MQTT_OUTPUT_RINGBUF_SIZE by decide)
        omega

theorem Client.Carries.send {c : Client κ} (h : c.Carries) : c.send.Carries := by
  have hspec := mqtt_output_send_spec (c.tcp 0) c.output
  have hsame : c.send.sent ++ c.send.output.pending = c.sent ++ c.output.pending := by
    rw [Client.send, List.append_assoc, hspec]
  exact ⟨h.valid, fun hf => hsame.trans (h.whole hf), fun hf => hsame ▸ h.short hf⟩

/-! ## what every call keeps -/

/-- What holds also in the middle of a call. -/
structure Sound (c : Client κ) : Prop where
  carries : c.Carries
  ledger : c.Ledger

/-- A client that has a connection. -/
structure Live (c : Client κ) : Prop extends Sound c where
  conn : c.conn
  state : c.conn_state ≠ .TCP_DISCONNECTED
  tight : c.requests.Tight

/-- What holds between calls. -/
structure Good (c : Client κ) : Prop extends Sound c where
  live : c.conn_state ≠ .TCP_DISCONNECTED → c.conn ∧ c.requests.Tight
  idle : c.conn_state = .TCP_DISCONNECTED → c.requests.pending = []

theorem Live.good {c : Client κ} (h : Live c) : Good c :=
  ⟨h.toSound, fun _ => ⟨h.conn, h.tight⟩, fun hstate => absurd hstate h.state⟩

theorem Good.toLive {c : Client κ} (h : Good c) (hstate : c.conn_state ≠ .TCP_DISCONNECTED) :
    Live c :=
  ⟨h.toSound, (h.live hstate).1, hstate, (h.live hstate).2⟩

theorem Sound.send {c : Client κ} (h : Sound c) : Sound c.send := ⟨h.carries.send, h.ledger⟩

theorem Live.send {c : Client κ} (h : Live c) : Live c.send :=
  ⟨h.toSound.send, h.conn, h.state, h.tight⟩

theorem Live.append {c : Client κ} (h : Live c) {p : Packet} {build : Ringbuf → Ringbuf}
    (hp : p.Valid) (hbuild : build c.output = mqtt_output_append_buf p.encode c.output) :
    Live (c.append p build) :=
  ⟨⟨h.carries.append hp hbuild, h.ledger⟩, h.conn, h.state, h.tight⟩

/-- Record calls that are not the end of a request. -/
theorem Live.record {c : Client κ} (h : Live c) {calls : List (Call κ)}
    (hcalls : ∀ r err at_, Call.request_cb r err at_ ∉ calls) : Live (c.record calls) :=
  ⟨⟨h.carries, h.ledger.record hcalls⟩, h.conn, h.state, h.tight⟩

/-! ### requests of the application -/

theorem submit_live {c : Client κ} (h : Live c) {pkt_id : BitVec 16} {cb : Option κ}
    {remaining_length : BitVec 16} {p : Packet} {build : Ringbuf → Ringbuf} (hp : p.Valid)
    (hbuild : build c.output = mqtt_output_append_buf p.encode c.output) :
    Live (submit pkt_id cb remaining_length p build c).2 := by
  have hinv := h.ledger.inv
  unfold submit
  dsimp only
  split
  · rename_i hnone
    rw [Requests.create_eq_self _ hnone]
    exact h
  · rename_i r hsome
    split
    · obtain ⟨hinv', hpending, htight⟩ := Requests.create_append_spec hinv hsome
      have hc := h.append hp hbuild
      refine Live.send ⟨⟨hc.carries, ?_⟩, hc.conn, hc.state, htight h.tight⟩
      exact h.ledger.append hinv' hpending
    · obtain ⟨hinv', hpending, htight⟩ := Requests.create_delete_spec hinv hsome
      exact ⟨⟨h.carries, h.ledger.same hinv' hpending⟩, h.conn, h.state, htight h.tight⟩

theorem generate_live {c : Client κ} (h : Live c) : Live (msg_generate_packet_id c).2 :=
  ⟨⟨h.carries, h.ledger⟩, h.conn, h.state, h.tight⟩

theorem mqtt_publish_good {c : Client κ} (h : Good c) (topic : List Byte) {payload : Payload}
    {payload_length : BitVec 16} {qos : Byte} (retain : Byte) (cb : Option κ) (hqos : qos < 3)
    (hpayload : payload = none → payload_length = 0) :
    Good (mqtt_publish topic payload payload_length qos retain cb c).2 := by
  unfold mqtt_publish
  split
  · exact h
  rename_i hstate
  have hlive := h.toLive hstate
  split
  · exact h
  rename_i htopic
  have hid : Live (if 0 < qos then msg_generate_packet_id c else (0, c)).2 := by
    split
    · exact generate_live hlive
    · exact hlive
  dsimp only
  by_cases hlen : 0xFFFF < 2 + topic.length + payload_length.toNat + if 0 < qos then 2 else 0
  · rw [if_pos hlen]
    exact hid.good
  · rw [if_neg hlen]
    have hvalid (retain : Bool) : (Packet.publish topic (payload.bytes payload_length) qos retain
        (if 0 < qos then msg_generate_packet_id c else (0, c)).1).Valid :=
      ⟨by omega, hqos, fun hq => by simp [hq]⟩
    exact (submit_live hid (hvalid _) (appendPublish_eq retain _ _ hqos hpayload (by omega))).good

theorem mqtt_sub_unsub_good {c : Client κ} (h : Good c) (topic : List Byte) (qos : Byte)
    (cb : Option κ) (sub : Bool) : Good (mqtt_sub_unsub topic qos cb sub c).2 := by
  unfold mqtt_sub_unsub
  split
  · exact h
  rename_i htopic
  dsimp only
  by_cases hlen : 0xFFFF < topic.length + 2 + 2 + if sub then 1 else 0
  · rw [if_pos hlen]
    exact h
  · rw [if_neg hlen]
    split
    · exact h
    rename_i hstate
    have hvalid (pkt_id : BitVec 16) (qos : Byte) : (if sub then Packet.subscribe pkt_id topic qos
        else Packet.unsubscribe pkt_id topic).Valid := by
      cases sub <;> (simp [Packet.Valid]; omega)
    exact (submit_live (generate_live (h.toLive hstate)) (hvalid _ _)
      (appendSubUnsub_eq qos sub _ _ (by omega))).good

/-! ### the end of a connection, and a new one -/

theorem mqtt_close_good {c : Client κ} (h : Sound c) (reason : Status) :
    Good (mqtt_close reason c) := by
  obtain ⟨hinv, hpending, -⟩ := Requests.clear_spec h.ledger.inv
  have hledger : Ledger c.requests.mqtt_clear_requests c.calls c.elapsed c.accepted
      (c.dropped ++ tickets c.requests) := h.ledger.clear hinv hpending
  have hrecord : Ledger c.requests.mqtt_clear_requests (c.calls ++ [.connect_cb reason]) c.elapsed
      c.accepted (c.dropped ++ tickets c.requests) := hledger.record (by simp)
  unfold mqtt_close
  dsimp only
  split
  · split
    · exact ⟨⟨h.carries, hrecord⟩, fun hne => absurd rfl hne, fun _ => hpending⟩
    · exact ⟨⟨h.carries, hledger⟩, fun hne => absurd rfl hne, fun _ => hpending⟩
  · rename_i hstate
    exact ⟨⟨h.carries, hledger⟩, fun hne => absurd hne hstate, fun _ => hpending⟩

theorem mqtt_disconnect_good {c : Client κ} (h : Good c) : Good (mqtt_disconnect c) := by
  unfold mqtt_disconnect
  split
  · refine mqtt_close_good ?_ _
    exact ⟨h.carries, h.ledger⟩
  · exact h

/-- A new connection begins with an empty buffer and no requests: none of the last one is
forgotten, for it has none left. -/
theorem wipe_good {c : Client κ} (h : Good c) (hstate : c.conn_state = .TCP_DISCONNECTED)
    (info : ConnectInfo) (connect_cb : Bool) : Good (c.wipe info connect_cb) := by
  obtain ⟨hinv, hpending, htight⟩ := Requests.init_spec
    (show ({} : Requests (Ticket κ)).pend_req_queue = none from rfl)
  refine ⟨⟨⟨by simp [Client.wipe], fun _ => ?_, by simp [Client.wipe]⟩, ?_⟩,
    fun hne => absurd rfl hne, fun _ => hpending⟩
  · simp [Client.wipe]
  · exact h.ledger.same hinv (by rw [h.idle hstate]; exact hpending)

theorem mqtt_client_connect_good {c : Client κ} (h : Good c) (info : ConnectInfo)
    (connect_cb : Bool) (altcp : Altcp) :
    Good (mqtt_client_connect info connect_cb altcp c).2 := by
  unfold mqtt_client_connect
  split
  · exact h
  rename_i hstate
  have hwipe := wipe_good h (not_not.mp hstate) info connect_cb
  split
  · exact hwipe
  rename_i len hlen
  dsimp only
  split
  · exact hwipe
  split
  · exact hwipe
  split
  · exact hwipe
  split
  · exact hwipe
  have hcarries := hwipe.carries.append (connectLength_eq hlen).2.2 (appendConnect_eq _ hlen)
  have htight := (Requests.init_spec
    (show ({} : Requests (Ticket κ)).pend_req_queue = none from rfl)).2.2
  exact ⟨⟨hcarries, hwipe.ledger⟩, fun _ => ⟨rfl, htight⟩, by simp⟩

/-! ### the timer -/

theorem keepAlive_sound {c : Client κ} (h : Sound c) : Sound (keepAlive c) := by
  have hc : Sound { c with cyclic_tick := c.cyclic_tick + 1 } := ⟨h.carries, h.ledger⟩
  unfold keepAlive
  dsimp only
  split
  · have hping := hc.carries.append (p := .pingreq) trivial (appendPing_eq _)
    exact ⟨hping, h.ledger⟩
  · exact hc

theorem keepAlive_good {c : Client κ} (h : Good c) : Good (keepAlive c) := by
  refine ⟨keepAlive_sound h.toSound, ?_, ?_⟩
  all_goals
    unfold keepAlive
    dsimp only
    split
  · exact h.live
  · exact h.live
  · exact h.idle
  · exact h.idle

theorem elapse_live {c : Client κ} (h : Live c) :
    Live ({ c with requests := (c.requests.mqtt_request_time_elapsed 5).2
                   elapsed := c.elapsed + 1 }.recordRequests
      (c.requests.mqtt_request_time_elapsed 5).1) := by
  obtain ⟨hinv, hpending, hdone, htight⟩ := Requests.time_elapsed_spec h.ledger.inv
    (show 0 < (5 : BitVec 8).toNat by decide)
  have hledger := h.ledger.elapse hinv hpending
  refine ⟨⟨h.carries, ?_⟩, h.conn, h.state, htight h.tight⟩
  rw [show (5 : BitVec 8).toNat = 5 from rfl] at hdone
  rw [← hdone] at hledger
  exact hledger

theorem mqtt_cyclic_timer_good {c : Client κ} (h : Good c) : Good (mqtt_cyclic_timer c) := by
  unfold mqtt_cyclic_timer
  split
  · dsimp only
    split
    · refine mqtt_close_good ?_ _
      exact ⟨h.carries, h.ledger⟩
    · exact ⟨⟨h.carries, h.ledger⟩, h.live, h.idle⟩
  · rename_i hstate
    have hlive := elapse_live (h.toLive (by simp [hstate]))
    dsimp only
    split
    · split
      · refine keepAlive_good (mqtt_close_good ?_ _)
        exact ⟨hlive.carries, hlive.ledger⟩
      · refine keepAlive_good ?_
        exact ⟨⟨hlive.carries, hlive.ledger⟩, hlive.good.live, hlive.good.idle⟩
    · exact hlive.good
  · exact h

/-! ### messages of the server -/

/-- What a message leaves behind: unless it closes the connection, a client that has one. -/
def Received (res : Status × Client κ) : Prop :=
  Sound res.2 ∧ (res.1 = MQTT_CONNECT_ACCEPTED → Live res.2)

theorem Live.received {c : Client κ} (h : Live c) (res : Status) : Received (res, c) :=
  ⟨h.toSound, fun _ => h⟩

theorem respond_live {c : Client κ} (h : Live c) (msg : Response) (pkt_id : BitVec 16) {qos : Byte}
    (hqos : controlByte msg.msg_type 0 qos 0 = msg.msg_type <<< 4 ||| msg.flags) :
    Live (pub_ack_rec_rel_response msg pkt_id qos c).2 := by
  unfold pub_ack_rec_rel_response
  split
  · exact (h.append (p := .response msg pkt_id) trivial (appendResponse_eq msg pkt_id _ hqos)).send
  · exact h

theorem receivePayload_received {c : Client κ} (h : Live c) (qos : Byte)
    (payload_offset payload_length length : BitVec 16) (remaining_length : BitVec 32)
    (payload : List Byte) :
    Received (receivePayload qos payload_offset payload_length length remaining_length payload c)
    := by
  unfold receivePayload
  split
  · split
    · exact h.received _
    have hdata (data : List Byte) (last : Bool) :
        Live (if c.data_cb then c.record [.data_cb data last] else c) := by
      split
      · exact h.record (by simp)
      · exact h
    dsimp only
    split
    · split
      · exact (respond_live (hdata _ _) .puback _ rfl).received _
      · exact (respond_live (hdata _ _) .pubrec _ rfl).received _
    · exact (hdata _ _).received _
  · exact h.received _

theorem receivePublish_received {c : Client κ} (h : Live c) {fixed_hdr_len : BitVec 8}
    {length : BitVec 16} {remaining_length : BitVec 32} {var_hdr_payload : Option (List Byte)}
    {res : Status × Client κ}
    (hres : receivePublish fixed_hdr_len length remaining_length var_hdr_payload c = some res) :
    Received res := by
  unfold receivePublish at hres
  dsimp only at hres
  split at hres
  · by_cases hlen : length.toNat < 2 + if MQTT_CTL_PACKET_QOS (c.rx_buffer 0) ≠ 0 then 2 else 0
    · rw [if_pos hlen] at hres
      cases hres
      exact h.received _
    rw [if_neg hlen, Option.map_eq_some_iff] at hres
    obtain ⟨payload, -, rfl⟩ := hres
    split
    · exact h.received _
    · refine receivePayload_received ?_ ..
      have hid (id : BitVec 16) : Live { c with inpub_pkt_id := id } :=
        ⟨⟨h.carries, h.ledger⟩, h.conn, h.state, h.tight⟩
      split
      · exact (hid _).record (by simp)
      · exact hid _
  · obtain ⟨payload, -, rfl⟩ := Option.map_eq_some_iff.mp hres
    exact receivePayload_received h ..

/-- A request is taken off the queue, and its item is freed. -/
theorem finish_live {c : Client κ} (h : Live c) {pkt_id : BitVec 16} {r : Slot}
    (hr : (c.requests.mqtt_take_request pkt_id).1 = some r) {err : LwipErr}
    (herr : err ≠ .ERR_TIMEOUT) :
    let taken := (c.requests.mqtt_take_request pkt_id).2
    Live ({ c.recordRequests (taken.call r err) with requests := taken.mqtt_delete_request r }) := by
  intro taken
  obtain ⟨-, -, hasked, -, ⟨t, before, behind, hpending, hbehind, -⟩, -⟩ :=
    Requests.take_spec h.ledger.inv hr
  obtain ⟨hinv, hsame, htight⟩ := Requests.take_delete_spec h.ledger.inv hr
  obtain ⟨ticket, hticket, -⟩ := h.ledger.waiting (t, c.requests.asked r) (by simp [hpending])
  have hcb : (taken.req_list r).cb = some ticket := (congrArg Requests.Asked.cb hasked).trans hticket
  have hledger := h.ledger.finish hinv hpending hticket (hsame.trans hbehind) herr
  refine ⟨⟨h.carries, ?_⟩, h.conn, h.state, htight h.tight⟩
  simpa [Client.Ledger, Client.recordRequests, Client.record, Requests.call, hcb] using hledger

theorem receiveResponse_received {c : Client κ} (h : Live c) (pkt_type : Byte)
    (pkt_id length : BitVec 16) (payload : List Byte) :
    Received (receiveResponse pkt_type pkt_id length payload c) := by
  unfold receiveResponse
  dsimp only
  split
  · rename_i hnone
    rw [(Requests.take_eq_none hnone).1]
    exact h.received _
  · rename_i r hr
    split
    · split
      · obtain ⟨hinv, -, hasked, -, ⟨t, before, behind, hpending, hbehind, -⟩, -⟩ :=
          Requests.take_spec h.ledger.inv hr
        obtain ⟨ticket, hticket, -⟩ := h.ledger.waiting (t, c.requests.asked r) (by simp [hpending])
        have hcb : ((c.requests.mqtt_take_request pkt_id).2.req_list r).cb = some ticket :=
          (congrArg Requests.Asked.cb hasked).trans hticket
        have hledger := h.ledger.lose hinv hpending hticket hbehind
        refine ⟨⟨h.carries, ?_⟩, fun hstatus => ?_⟩
        · simpa [Client.Ledger, Client.drop, hcb] using hledger
        · simp [MQTT_CONNECT_DISCONNECTED, MQTT_CONNECT_ACCEPTED] at hstatus
      · refine Live.received (finish_live h hr ?_) _
        split <;> simp
    · exact Live.received (finish_live h hr (by simp)) _

theorem receiveIdentified_received {c : Client κ} (h : Live c) {pkt_type : Byte}
    {length : BitVec 16} {var_hdr_payload : Option (List Byte)} {res : Status × Client κ}
    (hres : receiveIdentified pkt_type length var_hdr_payload c = some res) : Received res := by
  unfold receiveIdentified at hres
  split at hres
  · cases hres
    exact h.received _
  obtain ⟨payload, -, rfl⟩ := Option.map_eq_some_iff.mp hres
  dsimp only
  split
  · exact h.received _
  split
  · exact (respond_live h .pubrel _ rfl).received _
  split
  · exact (respond_live h .pubcomp _ rfl).received _
  split
  · exact receiveResponse_received h ..
  · exact h.received _

theorem receiveConnack_received {c : Client κ} (h : Live c) {length : BitVec 16}
    {var_hdr_payload : Option (List Byte)} {res : Status × Client κ}
    (hres : receiveConnack length var_hdr_payload c = some res) : Received res := by
  unfold receiveConnack at hres
  split at hres
  · split at hres
    · cases hres
      exact h.received _
    obtain ⟨payload, -, rfl⟩ := Option.map_eq_some_iff.mp hres
    dsimp only
    split
    · have hc : Live { c with cyclic_tick := 0, conn_state := .MQTT_CONNECTED } :=
        ⟨⟨h.carries, h.ledger⟩, h.conn, by simp, h.tight⟩
      split
      · exact (hc.record (by simp)).received _
      · exact hc.received _
    · exact h.received _
  · cases hres
    exact h.received _

theorem mqtt_message_received_received {c : Client κ} (h : Live c) {fixed_hdr_len : BitVec 8}
    {length : BitVec 16} {remaining_length : BitVec 32} {var_hdr_payload : Option (List Byte)}
    {res : Status × Client κ}
    (hres : mqtt_message_received fixed_hdr_len length remaining_length var_hdr_payload c =
      some res) : Received res := by
  unfold mqtt_message_received at hres
  dsimp only at hres
  split at hres
  · cases hres
    exact h.received _
  split at hres
  · exact receiveConnack_received h hres
  split at hres
  · cases hres
    exact h.received _
  split at hres
  · exact receivePublish_received h hres
  · exact receiveIdentified_received h hres

/-- A message without a body changes nothing, whatever becomes of it. -/
theorem mqtt_message_received_empty {c : Client κ} {fixed_hdr_len : BitVec 8}
    {res : Status × Client κ}
    (hres : mqtt_message_received fixed_hdr_len 0 0 none c = some res) : res.2 = c := by
  unfold mqtt_message_received receiveConnack receivePublish receiveIdentified at hres
  grind

/-! ### the parser -/

theorem nextByte_live {p : Chain} {s s' : Parse κ} (h : Live s.client)
    (hs : nextByte p s = some s') : Live s'.client := by
  unfold nextByte at hs
  split at hs
  · split at hs
    · cases hs
      exact h
    · cases hs
  split at hs
  · cases hs
    exact ⟨⟨h.carries, h.ledger⟩, h.conn, h.state, h.tight⟩
  · cases hs

theorem parseHeader_live {p : Chain} {s s' : Parse κ} (h : Live s.client)
    (hs : parseHeader p s = .next s') : Live s'.client := by
  unfold parseHeader at hs
  split at hs
  · cases hs
  rename_i s₁ hbyte
  have h₁ := nextByte_live h hbyte
  dsimp only at hs
  split at hs
  · split at hs
    · cases hs
    split at hs
    · unfold headerDone at hs
      split at hs
      · split at hs
        · rename_i res hres
          cases hs
          have hc : res.2 = s₁.client := mqtt_message_received_empty hres
          rw [← hc] at h₁
          exact ⟨⟨h₁.carries, h₁.ledger⟩, h₁.conn, h₁.state, h₁.tight⟩
        · cases hs
      · cases hs
        exact h₁
    · cases hs
      exact h₁
  · cases hs
    exact h₁

theorem parseHeader_ne_ret {p : Chain} {s : Parse κ} (res : Status × Client κ) :
    parseHeader p s ≠ .ret res := by
  unfold parseHeader headerDone
  grind

theorem parseBody_received {p : Chain} {s : Parse κ} (h : Live s.client) :
    (∀ s', parseBody p s = .next s' → Live s'.client) ∧
      ∀ res, parseBody p s = .ret res → Received res := by
  unfold parseBody
  dsimp only
  split
  · simp
  rename_i res hres
  have hreceived : Received res := by
    refine mqtt_message_received_received ?_ hres
    exact ⟨⟨h.carries, h.ledger⟩, h.conn, h.state, h.tight⟩
  unfold bodyDone
  dsimp only
  split
  · refine ⟨by simp, fun res' hres' => ?_⟩
    cases hres'
    exact hreceived
  · rename_i haccepted
    have hlive : Live res.2 := hreceived.2 (not_not.mp haccepted)
    split
    · refine ⟨fun s' hs' => ?_, by simp⟩
      cases hs'
      exact ⟨⟨hlive.carries, hlive.ledger⟩, hlive.conn, hlive.state, hlive.tight⟩
    · refine ⟨fun s' hs' => ?_, by simp⟩
      cases hs'
      exact hlive

theorem mqtt_parse_incoming_received {c : Client κ} (h : Live c) {p : Chain}
    {res : Status × Client κ} (hres : mqtt_parse_incoming p c res) : Received res := by
  refine Machine.Returns.of_invariant (fun s => Live s.client) Received hres h ?_ ?_
  · intro s s' hs hround
    unfold parseRound at hround
    split at hround
    · split at hround
      · exact parseHeader_live hs hround
      · exact (parseBody_received hs).1 s' hround
    · cases hround
  · intro s res hs hround
    unfold parseRound at hround
    split at hround
    · split at hround
      · exact absurd hround (parseHeader_ne_ret res)
      · exact (parseBody_received hs).2 res hround
    · cases hround
      exact hs.received _

theorem afterParse_good {res : Status × Client κ} (h : Received res) : Good (afterParse res) := by
  have hclosed : Good (if res.1 ≠ MQTT_CONNECT_ACCEPTED then mqtt_close res.1 res.2 else res.2) := by
    split
    · exact mqtt_close_good h.1 _
    · rename_i haccepted
      exact (h.2 (not_not.mp haccepted)).good
  unfold afterParse
  dsimp only
  generalize (if res.1 ≠ MQTT_CONNECT_ACCEPTED then mqtt_close res.1 res.2 else res.2) = c
    at hclosed ⊢
  split
  · exact ⟨⟨hclosed.carries, hclosed.ledger⟩, hclosed.live, hclosed.idle⟩
  · exact hclosed

/-! ### the other callbacks of TCP -/

theorem finishUnanswered_live {c : Client κ} (h : Live c) (n : Nat) :
    Live (finishUnanswered n c) := by
  induction n generalizing c with
  | zero => exact h
  | succ n ih =>
      unfold finishUnanswered
      dsimp only
      split
      · exact h
      · rename_i r hr
        exact ih (finish_live h hr (by simp))

theorem mqtt_tcp_sent_cb_good {c : Client κ} (h : Good c) : Good (mqtt_tcp_sent_cb c) := by
  unfold mqtt_tcp_sent_cb
  split
  · rename_i hstate
    have hlive := h.toLive (by simp [hstate])
    refine (finishUnanswered_live ?_ _).send.good
    exact ⟨⟨hlive.carries, hlive.ledger⟩, hlive.conn, hlive.state, hlive.tight⟩
  · exact h

theorem mqtt_tcp_poll_cb_good {c : Client κ} (h : Good c) : Good (mqtt_tcp_poll_cb c) := by
  unfold mqtt_tcp_poll_cb
  split
  · rename_i hstate
    exact (h.toLive (by simp [hstate])).send.good
  · exact h

theorem mqtt_tcp_connect_cb_good {c : Client κ} (h : Good c)
    (hstate : c.conn_state = .TCP_CONNECTING) : Good (mqtt_tcp_connect_cb c) := by
  have hlive := h.toLive (by simp [hstate])
  have hc : Live { c with msg_idx := 0, conn_state := .MQTT_CONNECTING, cyclic_tick := 0 } :=
    ⟨⟨hlive.carries, hlive.ledger⟩, hlive.conn, by simp, hlive.tight⟩
  exact hc.send.good

/-! ## every reachable state -/

theorem step_good {c c' : Client κ} (h : Good c) (hs : Step c c') : Good c' := by
  cases hs with
  | publish topic payload payload_length qos retain cb hqos hpayload =>
      exact mqtt_publish_good h topic retain cb hqos hpayload
  | sub_unsub topic qos cb sub => exact mqtt_sub_unsub_good h topic qos cb sub
  | set_inpub_callback => exact ⟨⟨h.carries, h.ledger⟩, h.live, h.idle⟩
  | connect info connect_cb altcp => exact mqtt_client_connect_good h info connect_cb altcp
  | disconnect => exact mqtt_disconnect_good h
  | timer => exact mqtt_cyclic_timer_good h
  | connected hc => exact mqtt_tcp_connect_cb_good h hc.2
  | recv hc p hwnd res hres =>
      have hne : c.conn_state ≠ .TCP_DISCONNECTED := by
        rcases hc.2 with hstate | hstate <;> simp [hstate]
      exact afterParse_good (mqtt_parse_incoming_received (h.toLive hne) hres)
  | fin => exact mqtt_close_good h.toSound _
  | sent => exact mqtt_tcp_sent_cb_good h
  | poll => exact mqtt_tcp_poll_cb_good h
  | err =>
      refine mqtt_close_good ?_ _
      exact ⟨h.carries, h.ledger⟩
  | net => exact ⟨⟨h.carries, h.ledger⟩, h.live, h.idle⟩

theorem Reachable.good {c : Client κ} (h : Reachable c) : Good c := by
  induction h with
  | new tcp =>
      obtain ⟨hinv, hpending⟩ := Requests.new_spec (Ticket κ)
      refine ⟨⟨⟨by simp, fun _ => by simp, by simp⟩, ⟨hinv, ?_, ?_, by simp⟩⟩,
        fun hne => absurd rfl hne, fun _ => hpending⟩
      · rw [hpending]
        simp
      · rw [tickets, hpending]
        simp
  | step _ hs ih => exact step_good ih hs

end Enc28j60.Mqtt
