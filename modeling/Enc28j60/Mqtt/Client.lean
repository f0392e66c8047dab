import Enc28j60.Lib.Machine
import Enc28j60.Mqtt.Chain
import Enc28j60.Mqtt.Packet
import Enc28j60.Mqtt.Requests

/-!
# Enc28j60.Mqtt.Client

The MQTT client of `mqtt.c`, down to its bytes: the parser works on the pbuf chains
that TCP delivers, the output ring buffer is filled byte by byte, and the requests
are items of `req_list`.

What TCP answers to a write is an oracle, `tcp`, which each `mqtt_output_send` takes
one answer from.  The callbacks are recorded in `calls`; they do not call the client.
`none` is behaviour the language leaves undefined: an access outside `rx_buffer`, a
shift by the width of its operand, a read through `NULL`.  The last fields of a client
are *history*: no function reads them.
-/

namespace Enc28j60.Mqtt

open App (LwipErr ClientState Status MQTT_CONNECT_ACCEPTED MQTT_CONNECT_DISCONNECTED
  MQTT_CONNECT_TIMEOUT)

/-! ## the client -/

def MQTT_VAR_HEADER_BUFFER_LEN : Nat := 128

/-- A request's callback with its argument, or `NULL`; and, as history, how often
`mqtt_request_time_elapsed` had been called before the request. -/
structure Ticket (κ : Type) where
  cb : Option κ
  asked_at : Nat

/-- A call of one of the application's callbacks. -/
inductive Call (κ : Type) where
  | connect_cb (status : Status)
  | pub_cb (topic : List Byte) (tot_len : BitVec 32)
  /-- `last` is `MQTT_DATA_FLAG_LAST`. -/
  | data_cb (data : List Byte) (last : Bool)
  /-- A request ends, and its callback is called if it has one; `at_` is the count of
  `Ticket.asked_at` by then. -/
  | request_cb (r : Ticket κ) (err : LwipErr) (at_ : Nat)

/-- `struct mqtt_client_s`. -/
structure Client (κ : Type) where
  cyclic_tick : BitVec 16 := 0
  keep_alive : BitVec 16 := 0
  server_watchdog : BitVec 16 := 0
  pkt_id_seq : BitVec 16 := 0
  inpub_pkt_id : BitVec 16 := 0
  conn_state : ClientState := .TCP_DISCONNECTED
  /-- `conn` is not `NULL`. -/
  conn : Bool := false
  /-- `connect_cb` is set; so for the next two. -/
  connect_cb : Bool := false
  requests : Requests (Ticket κ) := {}
  data_cb : Bool := false
  pub_cb : Bool := false
  msg_idx : BitVec 32 := 0
  rx_buffer : Nat → Byte := fun _ => 0
  output : Ringbuf := .wiped
  /-- What TCP will answer. -/
  tcp : Nat → Tcp
  /-- History: what TCP took since the client was wiped. -/
  sent : List Byte := []
  /-- History: the packets appended to `output` since then. -/
  packets : List Packet := []
  /-- History: one of them left no free byte in `output`. -/
  filled : Bool := false
  /-- History: the calls of the callbacks. -/
  calls : List (Call κ) := []
  /-- History: the calls of `mqtt_request_time_elapsed`. -/
  elapsed : Nat := 0
  /-- History: the requests that were queued. -/
  accepted : List (Ticket κ) := []
  /-- History: those of them that ended with their connection. -/
  dropped : List (Ticket κ) := []

variable {κ : Type}

/-- Record calls of the callbacks. -/
def Client.record (calls : List (Call κ)) (c : Client κ) : Client κ :=
  { c with calls := c.calls ++ calls }

def Client.recordRequests (done : List (Completion (Ticket κ))) (c : Client κ) : Client κ :=
  c.record (done.map fun d => .request_cb d.1 d.2 c.elapsed)

/-- Record requests whose callbacks will not be called. -/
def Client.drop (rs : List (Option (Ticket κ))) (c : Client κ) : Client κ :=
  { c with dropped := c.dropped ++ rs.reduceOption }

/-- Build the message of a packet in `output`. -/
def Client.append (p : Packet) (build : Ringbuf → Ringbuf) (c : Client κ) : Client κ :=
  { c with
    output := build c.output
    packets := c.packets ++ [p]
    filled := c.filled || MQTT_OUTPUT_RINGBUF_SIZE ≤ c.output.pending.length + p.encode.length }

/-- `mqtt_output_send(&client->output, client->conn)`. -/
def Client.send (c : Client κ) : Client κ :=
  let res := mqtt_output_send (c.tcp 0) c.output
  { c with
    output := res.1
    sent := c.sent ++ res.2
    tcp := fun n => c.tcp (n + 1) }

/-- Generate MQTT packet identifier. -/
def msg_generate_packet_id (c : Client κ) : BitVec 16 × Client κ :=
  let seq := c.pkt_id_seq + 1
  let seq := if seq = 0 then seq + 1 else seq
  (seq, { c with pkt_id_seq := seq })

/-! ## control bytes -/

def MQTT_CTL_PACKET_TYPE (fixed_hdr_byte0 : Byte) : Byte := (fixed_hdr_byte0 &&& 0xf0) >>> 4

def MQTT_CTL_PACKET_QOS (fixed_hdr_byte0 : Byte) : Byte := (fixed_hdr_byte0 &&& 0x6) >>> 1

/-! ## requests of the application -/

/-- The end of `mqtt_publish` and `mqtt_sub_unsub`: create the request, append its
message, queue it and send. -/
def submit (pkt_id : BitVec 16) (cb : Option κ) (remaining_length : BitVec 16) (p : Packet)
    (build : Ringbuf → Ringbuf) (c : Client κ) : LwipErr × Client κ :=
  let ticket : Ticket κ := ⟨cb, c.elapsed⟩
  let created := c.requests.mqtt_create_request pkt_id (some ticket)
  match created.1 with
  | none => (.ERR_MEM, { c with requests := created.2 })
  | some r =>
      if mqtt_output_check_space remaining_length c.output then
        (.ERR_OK, { c.append p build with
          requests := created.2.mqtt_append_request r
          accepted := c.accepted ++ [ticket] }.send)
      else
        (.ERR_MEM, { c with requests := created.2.mqtt_delete_request r })

/-- A pointer to `payload_length` bytes, or `NULL`. -/
abbrev Payload := Option (Nat → Byte)

/-- What the pointer and the length delimit. -/
def Payload.bytes (payload : Payload) (payload_length : BitVec 16) : List Byte :=
  match payload with
  | some payload => Mem.load payload 0 payload_length.toNat
  | none => []

def appendPublish (topic : List Byte) (payload : Payload) (payload_length : BitVec 16)
    (qos retain : Byte) (pkt_id remaining_length : BitVec 16) (rb : Ringbuf) : Ringbuf :=
  let rb := mqtt_output_append_fixed_header MQTT_MSG_TYPE_PUBLISH 0 qos retain remaining_length rb
  let rb := mqtt_output_append_string topic rb
  let rb := if 0 < qos then mqtt_output_append_u16 pkt_id rb else rb
  if payload.isSome ∧ 0 < payload_length then
    mqtt_output_append_buf (payload.bytes payload_length) rb
  else
    rb

/-- MQTT publish function. -/
def mqtt_publish (topic : List Byte) (payload : Payload) (payload_length : BitVec 16)
    (qos retain : Byte) (cb : Option κ) (c : Client κ) : LwipErr × Client κ :=
  if c.conn_state = .TCP_DISCONNECTED then (.ERR_CONN, c)
  else if 0xFFFF - 2 < topic.length then (.ERR_ARG, c)
  else
    let total_len := 2 + topic.length + payload_length.toNat + if 0 < qos then 2 else 0
    let id := if 0 < qos then msg_generate_packet_id c else (0, c)
    if 0xFFFF < total_len then (.ERR_ARG, id.2)
    else
      let remaining_length := BitVec.ofNat 16 total_len
      submit id.1 cb remaining_length
        (.publish topic (payload.bytes payload_length) qos (retain &&& 1 ≠ 0) id.1)
        (appendPublish topic payload payload_length qos retain id.1 remaining_length) id.2

def appendSubUnsub (topic : List Byte) (qos : Byte) (sub : Bool)
    (pkt_id remaining_length : BitVec 16) (rb : Ringbuf) : Ringbuf :=
  let rb := mqtt_output_append_fixed_header
    (if sub then MQTT_MSG_TYPE_SUBSCRIBE else MQTT_MSG_TYPE_UNSUBSCRIBE) 0 1 0 remaining_length rb
  let rb := mqtt_output_append_u16 pkt_id rb
  let rb := mqtt_output_append_string topic rb
  if sub then mqtt_output_append_u8 (if qos < 2 then qos else 2) rb else rb

/-- MQTT subscribe/unsubscribe function. -/
def mqtt_sub_unsub (topic : List Byte) (qos : Byte) (cb : Option κ) (sub : Bool) (c : Client κ) :
    LwipErr × Client κ :=
  if 0xFFFF - 2 < topic.length then (.ERR_ARG, c)
  else
    let total_len := topic.length + 2 + 2 + if sub then 1 else 0
    if 0xFFFF < total_len then (.ERR_ARG, c)
    else if c.conn_state = .TCP_DISCONNECTED then (.ERR_CONN, c)
    else
      let remaining_length := BitVec.ofNat 16 total_len
      let id := msg_generate_packet_id c
      submit id.1 cb remaining_length
        (if sub then .subscribe id.1 topic (if qos < 2 then qos else 2) else .unsubscribe id.1 topic)
        (appendSubUnsub topic qos sub id.1 remaining_length) id.2

/-- Set callback to handle incoming publish requests from server. -/
def mqtt_set_inpub_callback (pub_cb data_cb : Bool) (c : Client κ) : Client κ :=
  { c with data_cb := data_cb, pub_cb := pub_cb }

/-! ## closing -/

/-- Close connection to server. -/
def mqtt_close (reason : Status) (c : Client κ) : Client κ :=
  let c := c.drop (c.requests.pending.map fun r => r.2.cb)
  let c := { c with conn := false, requests := c.requests.mqtt_clear_requests }
  if c.conn_state ≠ .TCP_DISCONNECTED then
    let c := { c with conn_state := .TCP_DISCONNECTED }
    if c.connect_cb then c.record [.connect_cb reason] else c
  else
    c

/-- Disconnect from MQTT server; no callback is called. -/
def mqtt_disconnect (c : Client κ) : Client κ :=
  if c.conn_state ≠ .TCP_DISCONNECTED then
    mqtt_close MQTT_CONNECT_ACCEPTED { c with conn_state := .TCP_DISCONNECTED }
  else
    c

/-! ## connecting -/

/-- `struct mqtt_connect_client_info_t`; `will_msg` is what its pointer and `will_msg_len`,
or the terminating zero, delimit. -/
structure ConnectInfo where
  client_id : List Byte
  client_user : Option (List Byte) := none
  client_pass : Option (List Byte) := none
  keep_alive : BitVec 16 := 0
  will_topic : Option (List Byte) := none
  will_msg : Option (List Byte) := none
  will_qos : BitVec 8 := 0
  will_retain : BitVec 8 := 0

/-- The will, when it is to be used. -/
def ConnectInfo.will (info : ConnectInfo) : Option Will :=
  match info.will_topic, info.will_msg with
  | some topic, some msg => some ⟨topic, msg, info.will_qos &&& 3, info.will_retain ≠ 0⟩
  | _, _ => none

def ConnectInfo.packet (info : ConnectInfo) : Packet :=
  .connect info.client_id info.keep_alive info.will info.client_user info.client_pass

/-- The remaining length with one more string, of which `least` to `most` bytes are allowed. -/
def addString (least most : Nat) (str : Option (List Byte)) (len : Nat) : Option Nat :=
  match str with
  | none => some len
  | some str =>
      if least ≤ str.length ∧ str.length ≤ most ∧ len + 2 + str.length ≤ 0xFFFF then
        some (len + 2 + str.length)
      else
        none

/-- `remaining_length` of the CONNECT message, unless one of its strings is refused. -/
def connectLength (info : ConnectInfo) : Option Nat := do
  let len ← addString 1 0xFF (info.will.map Will.topic) (2 + 4 + 1 + 1 + 2)
  let len ← addString 0 0xFF (info.will.map Will.msg) len
  let len ← addString 1 0xFFFF info.client_user len
  let len ← addString 1 0xFFFF info.client_pass len
  addString 0 0xFFFF (some info.client_id) len

def connectFlags (info : ConnectInfo) : Byte :=
  (if info.will.isSome then
    (1 <<< 2) ||| ((info.will_qos &&& 3) <<< 3) ||| if info.will_retain ≠ 0 then 1 <<< 5 else 0
  else 0) |||
  (if info.client_user.isSome then 1 <<< 7 else 0) |||
  (if info.client_pass.isSome then 1 <<< 6 else 0) ||| 1 <<< 1

def appendOptional (str : Option (List Byte)) (rb : Ringbuf) : Ringbuf :=
  match str with
  | some str => mqtt_output_append_string str rb
  | none => rb

def appendConnect (info : ConnectInfo) (remaining_length : BitVec 16) (rb : Ringbuf) : Ringbuf :=
  let rb := mqtt_output_append_fixed_header MQTT_MSG_TYPE_CONNECT 0 0 0 remaining_length rb
  let rb := mqtt_output_append_string protocolName rb
  let rb := mqtt_output_append_u8 4 rb
  let rb := mqtt_output_append_u8 (connectFlags info) rb
  let rb := mqtt_output_append_u16 info.keep_alive rb
  let rb := mqtt_output_append_string info.client_id rb
  let rb := appendOptional (info.will.map Will.topic) rb
  let rb := appendOptional (info.will.map Will.msg) rb
  let rb := appendOptional info.client_user rb
  appendOptional info.client_pass rb

/-- What `altcp` answers in `mqtt_client_connect`. -/
structure Altcp where
  new_ : Bool
  bind_ : LwipErr
  connect : LwipErr

/-- What `memset` leaves, with the callbacks put back. -/
def Client.wipe (info : ConnectInfo) (connect_cb : Bool) (c : Client κ) : Client κ where
  data_cb := c.data_cb
  pub_cb := c.pub_cb
  connect_cb := connect_cb
  keep_alive := info.keep_alive
  requests := Requests.mqtt_init_requests {}
  tcp := c.tcp
  calls := c.calls
  elapsed := c.elapsed
  accepted := c.accepted
  dropped := c.dropped

/-- Connect to MQTT server. -/
def mqtt_client_connect (info : ConnectInfo) (connect_cb : Bool) (altcp : Altcp) (c : Client κ) :
    LwipErr × Client κ :=
  if c.conn_state ≠ .TCP_DISCONNECTED then (.ERR_ISCONN, c)
  else
    let c := c.wipe info connect_cb
    match connectLength info with
    | none => (.ERR_VAL, c)
    | some len =>
        let remaining_length := BitVec.ofNat 16 len
        if ¬mqtt_output_check_space remaining_length c.output then (.ERR_MEM, c)
        else if ¬altcp.new_ then (.ERR_MEM, c)
        else if altcp.bind_ ≠ .ERR_OK then (altcp.bind_, c)
        else if altcp.connect ≠ .ERR_OK then (altcp.connect, c)
        else
          (.ERR_OK, { c.append info.packet (appendConnect info remaining_length) with
            conn := true
            conn_state := .TCP_CONNECTING })

/-- TCP connect callback function. -/
def mqtt_tcp_connect_cb (c : Client κ) : Client κ :=
  { c with msg_idx := 0, conn_state := .MQTT_CONNECTING, cyclic_tick := 0 }.send

/-! ## the cyclic timer -/

def MQTT_CYCLIC_TIMER_INTERVAL : Nat := 5
def MQTT_CONNECT_TIMOUT : Nat := 100

/-- A keep alive message, when transmission has been idle for `keep_alive`. -/
def keepAlive (c : Client κ) : Client κ :=
  let c := { c with cyclic_tick := c.cyclic_tick + 1 }
  if c.keep_alive.toNat ≤ c.cyclic_tick.toNat * MQTT_CYCLIC_TIMER_INTERVAL ∧
      mqtt_output_check_space 0 c.output then
    { c.append .pingreq (mqtt_output_append_fixed_header MQTT_MSG_TYPE_PINGREQ 0 0 0 0) with
      cyclic_tick := 0 }
  else
    c

/-- `mqtt_cyclic_timer`. -/
def mqtt_cyclic_timer (c : Client κ) : Client κ :=
  match c.conn_state with
  | .MQTT_CONNECTING =>
      let c := { c with cyclic_tick := c.cyclic_tick + 1 }
      if MQTT_CONNECT_TIMOUT ≤ c.cyclic_tick.toNat * MQTT_CYCLIC_TIMER_INTERVAL then
        mqtt_close MQTT_CONNECT_TIMEOUT c
      else
        c
  | .MQTT_CONNECTED =>
      let elapsed := c.requests.mqtt_request_time_elapsed 5
      let c := { c with requests := elapsed.2, elapsed := c.elapsed + 1 }.recordRequests elapsed.1
      if 0 < c.keep_alive then
        let c := { c with server_watchdog := c.server_watchdog + 1 }
        if c.keep_alive.toNat + c.keep_alive.toNat / 2 <
            c.server_watchdog.toNat * MQTT_CYCLIC_TIMER_INTERVAL then
          keepAlive (mqtt_close MQTT_CONNECT_TIMEOUT c)
        else
          keepAlive c
      else
        c
  | _ => c

/-! ## incoming messages -/

/-- Send PUBACK, PUBREC or PUBREL response message. -/
def pub_ack_rec_rel_response (msg : Response) (pkt_id : BitVec 16) (qos : Byte) (c : Client κ) :
    LwipErr × Client κ :=
  if mqtt_output_check_space 2 c.output then
    (.ERR_OK, (c.append (.response msg pkt_id) fun rb => mqtt_output_append_u16 pkt_id
      (mqtt_output_append_fixed_header msg.msg_type 0 qos 0 2 rb)).send)
  else
    (.ERR_MEM, c)

/-- `var_hdr_payload[i]` and the byte behind it, as a `u16_t`. -/
def u16At (payload : List Byte) (i : Nat) : BitVec 16 :=
  ((payload.getD i 0).setWidth 16 <<< 8) + (payload.getD (i + 1) 0).setWidth 16

/-- A CONNACK. -/
def receiveConnack (length : BitVec 16) (var_hdr_payload : Option (List Byte)) (c : Client κ) :
    Option (Status × Client κ) :=
  if c.conn_state = .MQTT_CONNECTING then
    if length < 2 then some (MQTT_CONNECT_DISCONNECTED, c)
    else
      var_hdr_payload.map fun payload =>
        let res : Status := (payload.getD 1 0).setWidth 16
        if res = MQTT_CONNECT_ACCEPTED then
          let c := { c with cyclic_tick := 0, conn_state := .MQTT_CONNECTED }
          (res, if c.connect_cb then c.record [.connect_cb res] else c)
        else
          (res, c)
  else
    some (MQTT_CONNECT_ACCEPTED, c)

/-- The variable header of a PUBLISH, which the `length` bytes must hold all of: its
topic, packet identifier and size. -/
def publishHeader (qos : Byte) (fixed_hdr_len : BitVec 8) (length : BitVec 16)
    (payload : List Byte) : Option (List Byte × BitVec 16 × Nat) :=
  let var_hdr_payload_bufsize := MQTT_VAR_HEADER_BUFFER_LEN - fixed_hdr_len.toNat
  let qos_len := if qos ≠ 0 then 2 else 0
  let topic_len := (u16At payload 0).toNat
  let after_topic := 2 + topic_len
  if length.toNat - (2 + qos_len) < topic_len ∨
      var_hdr_payload_bufsize - (2 + qos_len) < topic_len then none
  else if var_hdr_payload_bufsize < after_topic + if qos ≠ 0 then 2 else 1 then none
  else
    let topic := (payload.drop 2).take topic_len
    if 0 < qos then
      if length.toNat < after_topic + 2 then none
      else some (topic, u16At payload after_topic, after_topic + 2)
    else
      some (topic, 0, after_topic)

/-- A part of a PUBLISH: the payload in it from `payload_offset` on. -/
def receivePayload (qos : Byte) (payload_offset payload_length length : BitVec 16)
    (remaining_length : BitVec 32) (payload : List Byte) (c : Client κ) : Status × Client κ :=
  if 0 < payload_length ∨ remaining_length = 0 then
    if length.toNat < payload_offset.toNat + payload_length.toNat then
      (MQTT_CONNECT_DISCONNECTED, c)
    else
      let data := (payload.drop payload_offset.toNat).take payload_length.toNat
      let c := if c.data_cb then c.record [.data_cb data (remaining_length = 0)] else c
      if remaining_length = 0 ∧ 0 < qos then
        (MQTT_CONNECT_ACCEPTED, (pub_ack_rec_rel_response
          (if qos = 1 then .puback else .pubrec) c.inpub_pkt_id 0 c).2)
      else
        (MQTT_CONNECT_ACCEPTED, c)
  else
    (MQTT_CONNECT_ACCEPTED, c)

/-- The parts of a PUBLISH; the first one begins with the variable header. -/
def receivePublish (fixed_hdr_len : BitVec 8) (length : BitVec 16) (remaining_length : BitVec 32)
    (var_hdr_payload : Option (List Byte)) (c : Client κ) : Option (Status × Client κ) :=
  let qos := MQTT_CTL_PACKET_QOS (c.rx_buffer 0)
  if c.msg_idx = fixed_hdr_len.setWidth 32 + length.setWidth 32 then
    if length.toNat < 2 + if qos ≠ 0 then 2 else 0 then some (MQTT_CONNECT_DISCONNECTED, c)
    else
      var_hdr_payload.map fun payload =>
        match publishHeader qos fixed_hdr_len length payload with
        | none => (MQTT_CONNECT_DISCONNECTED, c)
        | some (topic, id, after_topic) =>
            let payload_offset := BitVec.ofNat 16 after_topic
            let payload_length := length - payload_offset
            let c := { c with inpub_pkt_id := id }
            let c := if c.pub_cb then
                c.record [.pub_cb topic (remaining_length + payload_length.setWidth 32)] else c
            receivePayload qos payload_offset payload_length length remaining_length payload c
  else
    var_hdr_payload.map fun payload => receivePayload qos 0 length length remaining_length payload c

/-- Subscribe response from server. -/
def mqtt_incoming_suback (r : Slot) (result : Byte) (c : Client κ) : Client κ :=
  c.recordRequests (c.requests.call r (if result < 3 then .ERR_OK else .ERR_ABRT))

/-- SUBACK, UNSUBACK, PUBCOMP or PUBACK: the end of a request. -/
def receiveResponse (pkt_type : Byte) (pkt_id length : BitVec 16) (payload : List Byte)
    (c : Client κ) : Status × Client κ :=
  let taken := c.requests.mqtt_take_request pkt_id
  let c := { c with requests := taken.2 }
  match taken.1 with
  | none => (MQTT_CONNECT_ACCEPTED, c)
  | some r =>
      let delete (c : Client κ) : Client κ :=
        { c with requests := c.requests.mqtt_delete_request r }
      if pkt_type = MQTT_MSG_TYPE_SUBACK then
        if length < 3 then (MQTT_CONNECT_DISCONNECTED, c.drop [(c.requests.req_list r).cb])
        else (MQTT_CONNECT_ACCEPTED, delete (mqtt_incoming_suback r (payload.getD 2 0) c))
      else
        (MQTT_CONNECT_ACCEPTED, delete (c.recordRequests (c.requests.call r .ERR_OK)))

/-- The messages that begin with a packet identifier. -/
def receiveIdentified (pkt_type : Byte) (length : BitVec 16)
    (var_hdr_payload : Option (List Byte)) (c : Client κ) : Option (Status × Client κ) :=
  if length < 2 then some (MQTT_CONNECT_DISCONNECTED, c)
  else
    var_hdr_payload.map fun payload =>
      let pkt_id := u16At payload 0
      if pkt_id = 0 then (MQTT_CONNECT_DISCONNECTED, c)
      else if pkt_type = MQTT_MSG_TYPE_PUBREC then
        (MQTT_CONNECT_ACCEPTED, (pub_ack_rec_rel_response .pubrel pkt_id 1 c).2)
      else if pkt_type = MQTT_MSG_TYPE_PUBREL then
        (MQTT_CONNECT_ACCEPTED, (pub_ack_rec_rel_response .pubcomp pkt_id 0 c).2)
      else if pkt_type = MQTT_MSG_TYPE_SUBACK ∨ pkt_type = MQTT_MSG_TYPE_UNSUBACK ∨
          pkt_type = MQTT_MSG_TYPE_PUBCOMP ∨ pkt_type = MQTT_MSG_TYPE_PUBACK then
        receiveResponse pkt_type pkt_id length payload c
      else
        (MQTT_CONNECT_DISCONNECTED, c)

/-- Complete MQTT message received or buffer full. -/
def mqtt_message_received (fixed_hdr_len : BitVec 8) (length : BitVec 16)
    (remaining_length : BitVec 32) (var_hdr_payload : Option (List Byte)) (c : Client κ) :
    Option (Status × Client κ) :=
  let pkt_type := MQTT_CTL_PACKET_TYPE (c.rx_buffer 0)
  if MQTT_VAR_HEADER_BUFFER_LEN < fixed_hdr_len.toNat + length.toNat then
    some (MQTT_CONNECT_DISCONNECTED, c)
  else if pkt_type = MQTT_MSG_TYPE_CONNACK then receiveConnack length var_hdr_payload c
  else if pkt_type = MQTT_MSG_TYPE_PINGRESP then some (MQTT_CONNECT_ACCEPTED, c)
  else if pkt_type = MQTT_MSG_TYPE_PUBLISH then
    receivePublish fixed_hdr_len length remaining_length var_hdr_payload c
  else receiveIdentified pkt_type length var_hdr_payload c

/-! ## the parser -/

/-- The variables of `mqtt_parse_incoming`. -/
structure Parse (κ : Type) where
  client : Client κ
  in_offset : BitVec 16 := 0
  msg_rem_len : BitVec 32 := 0
  fixed_hdr_len : BitVec 8 := 0
  b : Byte := 0

abbrev Round (κ : Type) := Machine.Step (Parse κ) (Status × Client κ)

/-- The next byte of the fixed header: from `rx_buffer`, or from the chain. -/
def nextByte (p : Chain) (s : Parse κ) : Option (Parse κ) :=
  if s.fixed_hdr_len.setWidth 32 < s.client.msg_idx then
    if s.fixed_hdr_len.toNat < MQTT_VAR_HEADER_BUFFER_LEN then
      some { s with b := s.client.rx_buffer s.fixed_hdr_len.toNat }
    else
      none
  else if s.client.msg_idx.toNat < MQTT_VAR_HEADER_BUFFER_LEN then
    let b := pbuf_get_at p.bufs s.in_offset.toNat
    some { s with
      b := b
      in_offset := s.in_offset + 1
      client := { s.client with
        rx_buffer := fun i => if i = s.client.msg_idx.toNat then b else s.client.rx_buffer i
        msg_idx := s.client.msg_idx + 1 } }
  else
    none

/-- The remaining length is complete. -/
def headerDone (s : Parse κ) : Round κ :=
  if s.msg_rem_len = 0 then
    match mqtt_message_received s.fixed_hdr_len 0 0 none s.client with
    | some res => .next { s with client := { res.2 with msg_idx := 0 }, fixed_hdr_len := 0 }
    | none => .fault
  else
    .next { s with
      msg_rem_len := s.msg_rem_len + s.fixed_hdr_len.setWidth 32 - s.client.msg_idx }

/-- One byte of the fixed header. -/
def parseHeader (p : Chain) (s : Parse κ) : Round κ :=
  match nextByte p s with
  | none => .fault
  | some s =>
      let s := { s with fixed_hdr_len := s.fixed_hdr_len + 1 }
      if 2 ≤ s.fixed_hdr_len then
        let shift := (s.fixed_hdr_len.toNat - 2) * 7
        if 32 ≤ shift then .fault
        else
          let s := { s with
            msg_rem_len := s.msg_rem_len ||| ((s.b &&& 0x7f).setWidth 32 <<< shift) }
          if s.b &&& 0x80 = 0 then headerDone s else .next s
      else
        .next s

/-- `cpy_len`: what of the message is in the chain and fits the buffer; behind the first
128 bytes of a message, what of it is in the first pbuf. -/
def cpyLen (p : Chain) (s : Parse κ) : BitVec 16 :=
  let left := p.tot_len - s.in_offset
  let cpy_len := if left.setWidth 32 < s.msg_rem_len then left else s.msg_rem_len.setWidth 16
  let buffer_space := 128 - s.fixed_hdr_len.setWidth 16
  let cpy_len := if buffer_space < cpy_len then buffer_space else cpy_len
  if (128 : BitVec 32) ≤ s.client.msg_idx ∧ (p.len.toNat : Int) - s.in_offset.toNat < cpy_len.toNat
  then p.len - s.in_offset
  else cpy_len

/-- A part of the message has been received. -/
def bodyDone (cpy_len : BitVec 16) (s : Parse κ) (res : Status × Client κ) : Round κ :=
  if res.1 ≠ MQTT_CONNECT_ACCEPTED then .ret res
  else
    let s := { s with
      client := res.2
      in_offset := s.in_offset + cpy_len
      msg_rem_len := s.msg_rem_len - cpy_len.setWidth 32 }
    if s.msg_rem_len = 0 then
      .next { s with client := { s.client with msg_idx := 0 }, fixed_hdr_len := 0 }
    else
      .next s

/-- A part of the message. -/
def parseBody (p : Chain) (s : Parse κ) : Round κ :=
  let cpy_len := cpyLen p s
  let buffer_space := 128 - s.fixed_hdr_len.toNat
  let contiguous := pbuf_get_contiguous p.bufs buffer_space cpy_len.toNat s.in_offset.toNat
  let rx_buffer := match contiguous with
    | some (bytes, true) => Mem.store s.client.rx_buffer s.fixed_hdr_len.toNat bytes
    | _ => s.client.rx_buffer
  let c := { s.client with rx_buffer := rx_buffer, msg_idx := s.client.msg_idx + cpy_len.setWidth 32 }
  match mqtt_message_received s.fixed_hdr_len cpy_len (s.msg_rem_len - cpy_len.setWidth 32)
      (contiguous.map Prod.fst) c with
  | none => .fault
  | some res => bodyDone cpy_len s res

/-- One round of the loop of `mqtt_parse_incoming`. -/
def parseRound (p : Chain) (s : Parse κ) : Round κ :=
  if s.in_offset < p.tot_len then
    if s.fixed_hdr_len < 2 ∨ s.b &&& 0x80 ≠ 0 then parseHeader p s else parseBody p s
  else
    .ret (MQTT_CONNECT_ACCEPTED, s.client)

/-- MQTT incoming message parser: the loop returns `res`. -/
def mqtt_parse_incoming (p : Chain) (c : Client κ) (res : Status × Client κ) : Prop :=
  Machine.Returns (parseRound p) { client := c } res

/-- The rest of `mqtt_tcp_recv_cb`, after the parser. -/
def afterParse (res : Status × Client κ) : Client κ :=
  let c := if res.1 ≠ MQTT_CONNECT_ACCEPTED then mqtt_close res.1 res.2 else res.2
  if c.keep_alive ≠ 0 then { c with server_watchdog := 0 } else c

/-! ## the other callbacks of TCP -/

/-- The loop of `mqtt_tcp_sent_cb`: each request for which no answer will come ends here. -/
def finishUnanswered : Nat → Client κ → Client κ
  | 0, c => c
  | n + 1, c =>
      let taken := c.requests.mqtt_take_request 0
      match taken.1 with
      | none => c
      | some r =>
          let c := { c with requests := taken.2 }.recordRequests (taken.2.call r .ERR_OK)
          finishUnanswered n { c with requests := c.requests.mqtt_delete_request r }

/-- TCP data sent callback function. -/
def mqtt_tcp_sent_cb (c : Client κ) : Client κ :=
  if c.conn_state = .MQTT_CONNECTED then
    (finishUnanswered MQTT_REQ_MAX_IN_FLIGHT { c with cyclic_tick := 0, server_watchdog := 0 }).send
  else
    c

/-- TCP error callback function: the pcb is already gone. -/
def mqtt_tcp_err_cb (c : Client κ) : Client κ :=
  mqtt_close MQTT_CONNECT_DISCONNECTED { c with conn := false }

/-- TCP poll callback function. -/
def mqtt_tcp_poll_cb (c : Client κ) : Client κ :=
  if c.conn_state = .MQTT_CONNECTED then c.send else c

end Enc28j60.Mqtt
