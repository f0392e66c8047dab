import Enc28j60.Lib.Base128
import Enc28j60.Mqtt.Output

/-!
# Enc28j60.Mqtt.Packet

The control packets a client sends, as MQTT 3.1.1 lays them out: `encode` is the
layout, and `decode` is what the server reads.

Nothing here is translated from `mqtt.c` but the numbers of the packet types; what
the client writes is compared with `encode`.  The round trip has two halves: the
packets of a stream are told apart by their fixed headers alone (`frames_flatMap`),
and each one is read back from its control byte and its body (`ofFrame_frame`).
-/

namespace Enc28j60.Mqtt

def MQTT_MSG_TYPE_CONNECT : Byte := 1
def MQTT_MSG_TYPE_CONNACK : Byte := 2
def MQTT_MSG_TYPE_PUBLISH : Byte := 3
def MQTT_MSG_TYPE_PUBACK : Byte := 4
def MQTT_MSG_TYPE_PUBREC : Byte := 5
def MQTT_MSG_TYPE_PUBREL : Byte := 6
def MQTT_MSG_TYPE_PUBCOMP : Byte := 7
def MQTT_MSG_TYPE_SUBSCRIBE : Byte := 8
def MQTT_MSG_TYPE_SUBACK : Byte := 9
def MQTT_MSG_TYPE_UNSUBSCRIBE : Byte := 10
def MQTT_MSG_TYPE_UNSUBACK : Byte := 11
def MQTT_MSG_TYPE_PINGREQ : Byte := 12
def MQTT_MSG_TYPE_PINGRESP : Byte := 13

/-- A will: topic, message, quality of service and the retain flag. -/
structure Will where
  topic : List Byte
  msg : List Byte
  qos : Byte
  retain : Bool
  deriving DecidableEq

/-- The response to a PUBLISH, PUBREC or PUBREL. -/
inductive Response where
  | puback
  | pubrec
  | pubrel
  | pubcomp
  deriving DecidableEq

/-- What a client sends. -/
inductive Packet where
  | connect (client_id : List Byte) (keep_alive : BitVec 16) (will : Option Will)
      (user pass : Option (List Byte))
  | publish (topic payload : List Byte) (qos : Byte) (retain : Bool) (pkt_id : BitVec 16)
  | subscribe (pkt_id : BitVec 16) (topic : List Byte) (qos : Byte)
  | unsubscribe (pkt_id : BitVec 16) (topic : List Byte)
  | response (r : Response) (pkt_id : BitVec 16)
  | pingreq
  deriving DecidableEq

/-! ## layout -/

def Response.msg_type : Response → Byte
  | puback => MQTT_MSG_TYPE_PUBACK
  | pubrec => MQTT_MSG_TYPE_PUBREC
  | pubrel => MQTT_MSG_TYPE_PUBREL
  | pubcomp => MQTT_MSG_TYPE_PUBCOMP

/-- The flags of the fixed header: reserved, but in a PUBLISH. -/
def Response.flags : Response → Byte
  | pubrel => 2
  | _ => 0

def Packet.control : Packet → Byte
  | connect .. => MQTT_MSG_TYPE_CONNECT <<< 4
  | publish _ _ qos retain _ => MQTT_MSG_TYPE_PUBLISH <<< 4 ||| qos <<< 1 ||| if retain then 1 else 0
  | subscribe .. => MQTT_MSG_TYPE_SUBSCRIBE <<< 4 ||| 2
  | unsubscribe .. => MQTT_MSG_TYPE_UNSUBSCRIBE <<< 4 ||| 2
  | response r _ => r.msg_type <<< 4 ||| r.flags
  | pingreq => MQTT_MSG_TYPE_PINGREQ <<< 4

def optionalString (str : Option (List Byte)) : List Byte :=
  match str with
  | some str => stringBytes str
  | none => []

/-- The connect flags; the session is always a clean one. -/
def connectFlagsOf (will : Option Will) (user pass : Option (List Byte)) : Byte :=
  (match will with
    | some will => 0x04 ||| will.qos <<< 3 ||| if will.retain then 0x20 else 0
    | none => 0) |||
  (if user.isSome then 0x80 else 0) ||| (if pass.isSome then 0x40 else 0) ||| 0x02

/-- `"MQTT"`. -/
def protocolName : List Byte := [0x4d, 0x51, 0x54, 0x54]

def Packet.body : Packet → List Byte
  | connect client_id keep_alive will user pass =>
      stringBytes protocolName ++ [4, connectFlagsOf will user pass] ++ u16Bytes keep_alive ++
        stringBytes client_id ++ optionalString (will.map Will.topic) ++
        optionalString (will.map Will.msg) ++ optionalString user ++ optionalString pass
  | publish topic payload qos _ pkt_id =>
      stringBytes topic ++ (if 0 < qos then u16Bytes pkt_id else []) ++ payload
  | subscribe pkt_id topic qos => u16Bytes pkt_id ++ stringBytes topic ++ [qos]
  | unsubscribe pkt_id topic => u16Bytes pkt_id ++ stringBytes topic
  | response _ pkt_id => u16Bytes pkt_id
  | pingreq => []

def Packet.frame (p : Packet) : Byte × List Byte := (p.control, p.body)

/-- Control byte, remaining length, body. -/
def encodeFrame (f : Byte × List Byte) : List Byte := f.1 :: Base128.encode f.2.length ++ f.2

def Packet.encode (p : Packet) : List Byte := encodeFrame p.frame

/-! ## telling packets apart -/

/-- The first packet of a stream, and what is behind it. -/
def nextFrame : List Byte → Option ((Byte × List Byte) × List Byte)
  | [] => none
  | control :: bs =>
      match Base128.decode bs with
      | some (len, bs) =>
          if len ≤ bs.length then some ((control, bs.take len), bs.drop len) else none
      | none => none

/-- The packets of a stream, as far as `n` of them, and what is left. -/
def frames : Nat → List Byte → List (Byte × List Byte) × List Byte
  | 0, bs => ([], bs)
  | n + 1, bs =>
      match nextFrame bs with
      | some (f, bs) => (f :: (frames n bs).1, (frames n bs).2)
      | none => ([], bs)

theorem nextFrame_append (f : Byte × List Byte) (rest : List Byte) :
    nextFrame (encodeFrame f ++ rest) = some (f, rest) := by
  simp [encodeFrame, nextFrame, List.append_assoc, Base128.decode_encode]

/-- A stream of whole packets is read back packet by packet, and nothing is left. -/
theorem frames_flatMap (fs : List (Byte × List Byte)) (n : Nat) (h : fs.length ≤ n) :
    frames n (fs.flatMap encodeFrame) = (fs, []) := by
  induction fs generalizing n with
  | nil => cases n <;> simp [frames, nextFrame]
  | cons f fs ih =>
      cases n with
      | zero => simp at h
      | succ n =>
          rw [List.flatMap_cons, frames, nextFrame_append]
          simp [ih n (by simpa using h)]

/-! ## reading a packet -/

def readU16 : List Byte → Option (BitVec 16 × List Byte)
  | hi :: lo :: bs => some (hi.setWidth 16 <<< 8 ||| lo.setWidth 16, bs)
  | _ => none

def readString (bs : List Byte) : Option (List Byte × List Byte) := do
  let (len, bs) ← readU16 bs
  if len.toNat ≤ bs.length then some (bs.take len.toNat, bs.drop len.toNat) else none

def readOptional (present : Bool) (bs : List Byte) : Option (Option (List Byte) × List Byte) :=
  if present then (readString bs).map fun r => (some r.1, r.2) else some (none, bs)

/-- The two bytes of a `u16_t`, put together again. -/
theorem u16_join (v : BitVec 16) :
    ((v >>> 8).setWidth 8).setWidth 16 <<< 8 ||| (v.setWidth 8).setWidth 16 = v := by
  have := v.isLt
  have hhi : v.toNat / 2 ^ 8 % 2 ^ 8 % 2 ^ 16 * 2 ^ 8 % 2 ^ 16 = 2 ^ 8 * (v.toNat / 2 ^ 8) := by
    omega
  have hlo : v.toNat % 2 ^ 8 % 2 ^ 16 = v.toNat % 2 ^ 8 := by omega
  apply BitVec.eq_of_toNat_eq
  simp only [BitVec.toNat_or, BitVec.toNat_shiftLeft, BitVec.toNat_setWidth,
    BitVec.toNat_ushiftRight, Nat.shiftLeft_eq, Nat.shiftRight_eq_div_pow]
  rw [hhi, hlo, ← Nat.two_pow_add_eq_or_of_lt (by omega)]
  omega

@[simp] theorem readU16_append (v : BitVec 16) (rest : List Byte) :
    readU16 (u16Bytes v ++ rest) = some (v, rest) := by
  simp [u16Bytes, readU16, u16_join]

theorem readString_append {str : List Byte} (h : str.length < 65536) (rest : List Byte) :
    readString (stringBytes str ++ rest) = some (str, rest) := by
  have hlen : (BitVec.ofNat 16 str.length).toNat = str.length := by
    simpa using h
  simp [readString, stringBytes, List.append_assoc, hlen]

theorem readOptional_append {str : Option (List Byte)} (h : ∀ s ∈ str, s.length < 65536)
    (rest : List Byte) :
    readOptional str.isSome (optionalString str ++ rest) = some (str, rest) := by
  cases str with
  | none => rfl
  | some s => simp [readOptional, optionalString, readString_append (h s rfl)]

def readConnect (body : List Byte) : Option Packet := do
  let (name, bs) ← readString body
  guard (name = protocolName)
  let (level, bs) ← bs.head?.map fun b => (b, bs.tail)
  guard (level = 4)
  let (flags, bs) ← bs.head?.map fun b => (b, bs.tail)
  let (keep_alive, bs) ← readU16 bs
  let (client_id, bs) ← readString bs
  let (topic, bs) ← readOptional (flags &&& 0x04 ≠ 0) bs
  let (msg, bs) ← readOptional (flags &&& 0x04 ≠ 0) bs
  let (user, bs) ← readOptional (flags &&& 0x80 ≠ 0) bs
  let (pass, bs) ← readOptional (flags &&& 0x40 ≠ 0) bs
  guard (bs = [])
  let will := topic.bind fun topic => msg.map fun msg =>
    ⟨topic, msg, (flags >>> 3) &&& 3, flags &&& 0x20 ≠ 0⟩
  some (.connect client_id keep_alive will user pass)

def readPublish (control : Byte) (body : List Byte) : Option Packet := do
  let qos := (control >>> 1) &&& 3
  let (topic, bs) ← readString body
  let (pkt_id, bs) ← if 0 < qos then readU16 bs else some (0, bs)
  some (.publish topic bs qos (control &&& 1 ≠ 0) pkt_id)

def readSubscribe (body : List Byte) : Option Packet := do
  let (pkt_id, bs) ← readU16 body
  let (topic, bs) ← readString bs
  match bs with
  | [qos] => some (.subscribe pkt_id topic qos)
  | _ => none

def readUnsubscribe (body : List Byte) : Option Packet := do
  let (pkt_id, bs) ← readU16 body
  let (topic, bs) ← readString bs
  guard (bs = [])
  some (.unsubscribe pkt_id topic)

def readResponse (r : Response) (body : List Byte) : Option Packet := do
  let (pkt_id, bs) ← readU16 body
  guard (bs = [])
  some (.response r pkt_id)

/-- What the server makes of a control byte and a body. -/
def ofFrame (f : Byte × List Byte) : Option Packet :=
  let type := f.1 >>> 4
  let flags := f.1 &&& 0x0f
  if type = MQTT_MSG_TYPE_PUBLISH then readPublish f.1 f.2
  else if type = MQTT_MSG_TYPE_CONNECT ∧ flags = 0 then readConnect f.2
  else if type = MQTT_MSG_TYPE_SUBSCRIBE ∧ flags = 2 then readSubscribe f.2
  else if type = MQTT_MSG_TYPE_UNSUBSCRIBE ∧ flags = 2 then readUnsubscribe f.2
  else if type = MQTT_MSG_TYPE_PUBACK ∧ flags = 0 then readResponse .puback f.2
  else if type = MQTT_MSG_TYPE_PUBREC ∧ flags = 0 then readResponse .pubrec f.2
  else if type = MQTT_MSG_TYPE_PUBREL ∧ flags = 2 then readResponse .pubrel f.2
  else if type = MQTT_MSG_TYPE_PUBCOMP ∧ flags = 0 then readResponse .pubcomp f.2
  else if type = MQTT_MSG_TYPE_PINGREQ ∧ flags = 0 ∧ f.2 = [] then some .pingreq
  else none

/-- The packets that have a layout: strings fit their length field, and the numbers
their bits. -/
def Packet.Valid : Packet → Prop
  | connect client_id _ will user pass =>
      client_id.length < 65536 ∧ (∀ s ∈ user, s.length < 65536) ∧ (∀ s ∈ pass, s.length < 65536) ∧
        ∀ w ∈ will, w.topic.length < 65536 ∧ w.msg.length < 65536 ∧ w.qos < 4
  | publish topic _ qos _ pkt_id => topic.length < 65536 ∧ qos < 3 ∧ (qos = 0 → pkt_id = 0)
  | subscribe _ topic _ => topic.length < 65536
  | unsubscribe _ topic => topic.length < 65536
  | response .. => True
  | pingreq => True

/-- The flags of a CONNECT, one by one. -/
theorem connectFlagsOf_bits (will : Option Will) (user pass : Option (List Byte))
    (hqos : ∀ w ∈ will, w.qos < 4) :
    let flags := connectFlagsOf will user pass
    decide (flags &&& 0x04 ≠ 0) = will.isSome ∧ decide (flags &&& 0x80 ≠ 0) = user.isSome ∧
      decide (flags &&& 0x40 ≠ 0) = pass.isSome ∧
      ∀ w ∈ will, (flags >>> 3) &&& 3 = w.qos ∧ decide (flags &&& 0x20 ≠ 0) = w.retain := by
  have hall : ∀ qos : Byte, qos < 4 → ∀ r u p : Bool,
      let flags : Byte := (0x04 ||| qos <<< 3 ||| if r then 0x20 else 0) |||
        (if u then 0x80 else 0) ||| (if p then 0x40 else 0) ||| 0x02
      decide (flags &&& 0x04 ≠ 0) = true ∧ decide (flags &&& 0x80 ≠ 0) = u ∧
        decide (flags &&& 0x40 ≠ 0) = p ∧ (flags >>> 3) &&& 3 = qos ∧
        decide (flags &&& 0x20 ≠ 0) = r := by
    decide
  cases will with
  | none => cases user <;> cases pass <;> simp [connectFlagsOf]
  | some w =>
      obtain ⟨h1, h2, h3, h4, h5⟩ := hall w.qos (hqos w rfl) w.retain user.isSome pass.isSome
      exact ⟨h1, h2, h3, fun v hv => by cases hv; exact ⟨h4, h5⟩⟩

/-- The control byte of a PUBLISH, field by field. -/
theorem control_publish_bits (topic payload : List Byte) (qos : Byte) (retain : Bool)
    (pkt_id : BitVec 16) (hqos : qos < 3) :
    let control := (Packet.publish topic payload qos retain pkt_id).control
    control >>> 4 = MQTT_MSG_TYPE_PUBLISH ∧ (control >>> 1) &&& 3 = qos ∧
      decide (control &&& 1 ≠ 0) = retain := by
  have hall : ∀ qos : Byte, qos < 3 → ∀ r : Bool,
      let control : Byte := MQTT_MSG_TYPE_PUBLISH <<< 4 ||| qos <<< 1 ||| if r then 1 else 0
      control >>> 4 = MQTT_MSG_TYPE_PUBLISH ∧ (control >>> 1) &&& 3 = qos ∧
        decide (control &&& 1 ≠ 0) = r := by
    decide
  exact hall qos hqos retain

/-- What a control byte of a CONNECT, or of a packet with an identifier, leads to. -/
theorem ofFrame_eq {p : Packet} : ofFrame p.frame =
    match p with
    | .connect .. => readConnect p.body
    | .publish .. => ofFrame p.frame
    | .subscribe .. => readSubscribe p.body
    | .unsubscribe .. => readUnsubscribe p.body
    | .response r _ => readResponse r p.body
    | .pingreq => some .pingreq := by
  cases p with
  | response r pkt_id =>
      cases r <;> simp [ofFrame, Packet.frame, Packet.control, Response.msg_type, Response.flags,
        MQTT_MSG_TYPE_CONNECT, MQTT_MSG_TYPE_PUBLISH, MQTT_MSG_TYPE_PUBACK, MQTT_MSG_TYPE_PUBREC,
        MQTT_MSG_TYPE_PUBREL, MQTT_MSG_TYPE_PUBCOMP, MQTT_MSG_TYPE_SUBSCRIBE,
        MQTT_MSG_TYPE_UNSUBSCRIBE]
  | publish => rfl
  | connect | subscribe | unsubscribe =>
      simp [ofFrame, Packet.frame, Packet.control, MQTT_MSG_TYPE_CONNECT, MQTT_MSG_TYPE_PUBLISH,
        MQTT_MSG_TYPE_SUBSCRIBE, MQTT_MSG_TYPE_UNSUBSCRIBE]
  | pingreq => rfl

theorem readConnect_body {client_id : List Byte} {keep_alive : BitVec 16} {will : Option Will}
    {user pass : Option (List Byte)}
    (h : (Packet.connect client_id keep_alive will user pass).Valid) :
    readConnect (Packet.connect client_id keep_alive will user pass).body =
      some (.connect client_id keep_alive will user pass) := by
  obtain ⟨hid, huser, hpass, hwill⟩ := h
  obtain ⟨hw, hu, hp, hbits⟩ := connectFlagsOf_bits will user pass fun w hw => (hwill w hw).2.2
  have hname : protocolName.length < 65536 := by decide
  have htopic (rest : List Byte) :
      readOptional will.isSome (optionalString (will.map Will.topic) ++ rest) =
        some (will.map Will.topic, rest) := by
    rw [← readOptional_append (by simpa using fun w hw => (hwill w hw).1), Option.isSome_map]
  have hmsg (rest : List Byte) :
      readOptional will.isSome (optionalString (will.map Will.msg) ++ rest) =
        some (will.map Will.msg, rest) := by
    rw [← readOptional_append (by simpa using fun w hw => (hwill w hw).2.1), Option.isSome_map]
  have hend := readOptional_append hpass []
  rw [List.append_nil] at hend
  simp only [readConnect, Packet.body, List.append_assoc, readString_append hname,
    Option.bind_eq_bind, Option.bind_some, List.cons_append, List.nil_append, List.head?_cons,
    List.tail_cons, Option.map_some, readU16_append, readString_append hid, hw, hu, hp, htopic,
    hmsg, readOptional_append huser, hend, guard_true, Option.pure_def]
  cases will with
  | none => simp
  | some w =>
      obtain ⟨hq, hr⟩ := hbits w rfl
      simp only [Option.map_some, Option.bind_some, hq, hr]

/-- The server reads back each packet. -/
theorem ofFrame_frame {p : Packet} (h : p.Valid) : ofFrame p.frame = some p := by
  rw [ofFrame_eq]
  cases p with
  | connect client_id keep_alive will user pass => exact readConnect_body h
  | publish topic payload qos retain pkt_id =>
      obtain ⟨htopic, hqos, hid⟩ := h
      obtain ⟨htype, hq, hretain⟩ := control_publish_bits topic payload qos retain pkt_id hqos
      simp only [Packet.frame, ofFrame, htype, if_true]
      simp only [readPublish, hq, hretain, Packet.body, List.append_assoc,
        readString_append htopic]
      by_cases hpos : 0#8 < qos
      · simp [hpos]
      · have hzero : qos = 0#8 := by
          rw [BitVec.lt_def] at hpos
          exact BitVec.eq_of_toNat_eq (by simpa using hpos)
        simp [hzero, hid hzero]
  | subscribe pkt_id topic qos =>
      simp [readSubscribe, Packet.body, List.append_assoc, readString_append h]
  | unsubscribe pkt_id topic =>
      have hread := readString_append h []
      rw [List.append_nil] at hread
      simp [readUnsubscribe, Packet.body, hread]
  | response r pkt_id =>
      have hread := readU16_append pkt_id []
      rw [List.append_nil] at hread
      simp [readResponse, Packet.body, hread]
  | pingreq => rfl

end Enc28j60.Mqtt
