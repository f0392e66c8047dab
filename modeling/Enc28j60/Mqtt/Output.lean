import Enc28j60.App.State
import Enc28j60.Chip
import Enc28j60.Lib.Fifo
import Enc28j60.Lib.Mem

/-!
# Enc28j60.Mqtt.Output

The output ring buffer of `mqtt.c`, the helpers that build messages in it and
`mqtt_output_send`, which hands its bytes to TCP.

`pending` is the buffer read as a queue.  Appending is `++` up to what the two
indexes can tell apart (`pending_append_buf`), and sending moves a prefix of the
queue to TCP, whatever TCP answers (`mqtt_output_send_spec`).
-/

namespace Enc28j60.Mqtt

open App (LwipErr)

/-! ## the ring buffer -/

def MQTT_OUTPUT_RINGBUF_SIZE : Nat := 256

/-- `struct mqtt_ringbuf_t`; both indexes stay inside `buf`. -/
structure Ringbuf where
  put : BitVec 16 := 0
  get : BitVec 16 := 0
  buf : Nat → Byte := fun _ => 0
  put_lt : put.toNat < MQTT_OUTPUT_RINGBUF_SIZE
  get_lt : get.toNat < MQTT_OUTPUT_RINGBUF_SIZE

/-- The buffer of a client that has been wiped. -/
def Ringbuf.wiped : Ringbuf where
  put_lt := by decide
  get_lt := by decide

def LWIP_MIN (x y : BitVec 16) : BitVec 16 := if x < y then x else y

@[simp] theorem toNat_LWIP_MIN (x y : BitVec 16) : (LWIP_MIN x y).toNat = min x.toNat y.toNat := by
  unfold LWIP_MIN
  split <;> rename_i h <;> rw [BitVec.lt_def] at h <;> omega

/-- `++index`, back to 0 at the end of `buf`. -/
def nextIndex (index : BitVec 16) : BitVec 16 := if 256 ≤ index + 1 then 0 else index + 1

theorem toNat_nextIndex {index : BitVec 16} (h : index.toNat < MQTT_OUTPUT_RINGBUF_SIZE) :
    (nextIndex index).toNat = (index.toNat + 1) % MQTT_OUTPUT_RINGBUF_SIZE := by
  unfold nextIndex MQTT_OUTPUT_RINGBUF_SIZE at *
  split <;> rename_i h' <;> simp [BitVec.le_def] at h' ⊢ <;> omega

/-- `index += len`, less the size at or behind the end of `buf`. -/
def addIndex (index len : BitVec 16) : BitVec 16 :=
  if 256 ≤ index + len then index + len - 256 else index + len

theorem toNat_addIndex {index len : BitVec 16} (h : index.toNat < MQTT_OUTPUT_RINGBUF_SIZE)
    (hlen : len.toNat < MQTT_OUTPUT_RINGBUF_SIZE) :
    (addIndex index len).toNat = (index.toNat + len.toNat) % MQTT_OUTPUT_RINGBUF_SIZE := by
  unfold addIndex MQTT_OUTPUT_RINGBUF_SIZE at *
  split <;> rename_i h' <;> simp [BitVec.le_def, BitVec.toNat_sub] at h' ⊢ <;> omega

namespace Ringbuf

/-- Add single item to ring buffer. -/
def mqtt_ringbuf_put (rb : Ringbuf) (item : Byte) : Ringbuf where
  put := nextIndex rb.put
  get := rb.get
  buf := fun i => if i = rb.put.toNat then item else rb.buf i
  put_lt := by
    rw [toNat_nextIndex rb.put_lt]
    exact Nat.mod_lt _ (by decide)
  get_lt := rb.get_lt

/-- `mqtt_ringbuf_advance_get_idx`, for what its assertion admits. -/
def mqtt_ringbuf_advance_get_idx (rb : Ringbuf) (len : BitVec 16)
    (h : len.toNat < MQTT_OUTPUT_RINGBUF_SIZE) : Ringbuf where
  put := rb.put
  get := addIndex rb.get len
  buf := rb.buf
  put_lt := rb.put_lt
  get_lt := by
    rw [toNat_addIndex rb.get_lt h]
    exact Nat.mod_lt _ (by decide)

/-- Return number of bytes in ring buffer. -/
def mqtt_ringbuf_len (rb : Ringbuf) : BitVec 16 :=
  let len : BitVec 32 := rb.put.setWidth 32 - rb.get.setWidth 32
  (if 0xFFFF < len then len + 256 else len).setWidth 16

/-- Return number of bytes free in ring buffer. -/
def mqtt_ringbuf_free (rb : Ringbuf) : Nat := MQTT_OUTPUT_RINGBUF_SIZE - rb.mqtt_ringbuf_len.toNat

/-- Return number of bytes possible to read without wrapping around. -/
def mqtt_ringbuf_linear_read_length (rb : Ringbuf) : BitVec 16 :=
  LWIP_MIN rb.mqtt_ringbuf_len (256 - rb.get)

end Ringbuf

/-! ## the buffer as a queue -/

section Queue

variable (rb : Ringbuf)

/-- The bytes in the buffer, first to last. -/
def Ringbuf.pending : List Byte :=
  Fifo.held rb.buf MQTT_OUTPUT_RINGBUF_SIZE rb.get.toNat rb.put.toNat

@[simp] theorem pending_wiped : Ringbuf.wiped.pending = [] := rfl

@[simp] theorem toNat_mqtt_ringbuf_len : rb.mqtt_ringbuf_len.toNat = rb.pending.length := by
  have hput := rb.put_lt
  have hget := rb.get_lt
  unfold Ringbuf.mqtt_ringbuf_len Ringbuf.pending
  unfold MQTT_OUTPUT_RINGBUF_SIZE at *
  rw [Fifo.length_held]
  unfold Fifo.ahead
  dsimp only
  split <;> rename_i h <;> simp [BitVec.lt_def, BitVec.toNat_sub] at h ⊢ <;> omega

theorem length_pending_lt : rb.pending.length < MQTT_OUTPUT_RINGBUF_SIZE := by
  rw [Ringbuf.pending, Fifo.length_held]
  exact Fifo.ahead_lt (by decide)

theorem toNat_linear_read_length :
    rb.mqtt_ringbuf_linear_read_length.toNat =
      min rb.pending.length (MQTT_OUTPUT_RINGBUF_SIZE - rb.get.toNat) := by
  have hget := rb.get_lt
  unfold Ringbuf.mqtt_ringbuf_linear_read_length MQTT_OUTPUT_RINGBUF_SIZE at *
  rw [toNat_LWIP_MIN, toNat_mqtt_ringbuf_len]
  simp [BitVec.toNat_sub]
  omega

theorem linear_read_length_lt :
    rb.mqtt_ringbuf_linear_read_length.toNat < MQTT_OUTPUT_RINGBUF_SIZE := by
  have := length_pending_lt rb
  rw [toNat_linear_read_length]
  omega

@[simp] theorem pending_put (item : Byte) :
    (rb.mqtt_ringbuf_put item).pending =
      Fifo.wrap MQTT_OUTPUT_RINGBUF_SIZE (rb.pending ++ [item]) := by
  unfold Ringbuf.pending Ringbuf.mqtt_ringbuf_put
  rw [← Fifo.held_put rb.get_lt rb.put_lt, toNat_nextIndex rb.put_lt]

theorem pending_advance {len : BitVec 16} (h : len.toNat < MQTT_OUTPUT_RINGBUF_SIZE)
    (hlen : len.toNat ≤ rb.pending.length) :
    (rb.mqtt_ringbuf_advance_get_idx len h).pending = rb.pending.drop len.toNat := by
  rw [Ringbuf.pending, Fifo.length_held] at hlen
  unfold Ringbuf.pending Ringbuf.mqtt_ringbuf_advance_get_idx
  rw [← Fifo.held_advance rb.get_lt rb.put_lt hlen, toNat_addIndex rb.get_lt h]

end Queue

/-! ## output message build helpers -/

def mqtt_output_append_u8 (value : Byte) (rb : Ringbuf) : Ringbuf := rb.mqtt_ringbuf_put value

def mqtt_output_append_u16 (value : BitVec 16) (rb : Ringbuf) : Ringbuf :=
  (rb.mqtt_ringbuf_put ((value >>> 8).setWidth 8)).mqtt_ringbuf_put (value.setWidth 8)

/-- `mqtt_output_append_buf`; `data` is what its pointer and `length` delimit. -/
def mqtt_output_append_buf (data : List Byte) (rb : Ringbuf) : Ringbuf :=
  data.foldl Ringbuf.mqtt_ringbuf_put rb

/-- `mqtt_output_append_string`; `length` is that of `str`. -/
def mqtt_output_append_string (str : List Byte) (rb : Ringbuf) : Ringbuf :=
  mqtt_output_append_buf str (mqtt_output_append_u16 (BitVec.ofNat 16 str.length) rb)

theorem toNat_shift (r_length : BitVec 16) : (r_length >>> 7).toNat = r_length.toNat / 128 := by
  simp [Nat.shiftRight_eq_div_pow]

theorem shift_pos {r_length : BitVec 16} : 0 < r_length >>> 7 ↔ 128 ≤ r_length.toNat := by
  rw [BitVec.lt_def, toNat_shift]
  simp

/-- Seven bits less. -/
theorem toNat_shift_lt {r_length : BitVec 16} (h : 0 < r_length >>> 7) :
    (r_length >>> 7).toNat < r_length.toNat := by
  rw [shift_pos] at h
  rw [toNat_shift]
  omega

/-- The remaining length field: seven bits in a byte, the lowest first. -/
def remainingLength (r_length : BitVec 16) : List Byte :=
  let b : Byte := (r_length &&& 0x7f).setWidth 8 ||| (if 128 ≤ r_length then 0x80 else 0)
  if _h : 0 < r_length >>> 7 then b :: remainingLength (r_length >>> 7) else [b]
termination_by r_length.toNat
decreasing_by exact toNat_shift_lt _h

/-- The control byte. -/
def controlByte (msg_type fdup fqos fretain : Byte) : Byte :=
  (msg_type &&& 0x0f) <<< 4 ||| (fdup &&& 1) <<< 3 ||| (fqos &&& 3) <<< 1 ||| (fretain &&& 1)

/-- Append fixed header. -/
def mqtt_output_append_fixed_header (msg_type fdup fqos fretain : Byte) (r_length : BitVec 16)
    (rb : Ringbuf) : Ringbuf :=
  mqtt_output_append_buf (remainingLength r_length)
    (mqtt_output_append_u8 (controlByte msg_type fdup fqos fretain) rb)

/-- The loop of `mqtt_output_check_space`: one more byte for each seven bits. -/
def countLength (total_len r_length : BitVec 16) : BitVec 16 :=
  if _h : 0 < r_length >>> 7 then countLength (total_len + 1) (r_length >>> 7) else total_len + 1
termination_by r_length.toNat
decreasing_by exact toNat_shift_lt _h

/-- `mqtt_output_check_space`: the message will fit. -/
def mqtt_output_check_space (r_length : BitVec 16) (rb : Ringbuf) : Bool :=
  (countLength (1 + r_length) r_length).toNat ≤ rb.mqtt_ringbuf_free

/-! ## sending -/

/-- What TCP answers in a call of `mqtt_output_send`: the space in its send
buffer before each write, and what each write returns. -/
structure Tcp where
  sndbuf : BitVec 16
  write : LwipErr
  sndbufAfter : BitVec 16
  writeAfter : LwipErr

/-- `altcp_write` of the next `send_len` bytes, and `get` behind them if TCP took them. -/
def Ringbuf.writeOut (rb : Ringbuf) (err : LwipErr) (send_len : BitVec 16)
    (h : send_len.toNat < MQTT_OUTPUT_RINGBUF_SIZE) : Ringbuf × List Byte :=
  if err = .ERR_OK then
    (rb.mqtt_ringbuf_advance_get_idx send_len h, Mem.load rb.buf rb.get.toNat send_len.toNat)
  else
    (rb, [])

theorem min_linear_lt (n : BitVec 16) (rb : Ringbuf) :
    (LWIP_MIN n rb.mqtt_ringbuf_linear_read_length).toNat < MQTT_OUTPUT_RINGBUF_SIZE := by
  have := linear_read_length_lt rb
  rw [toNat_LWIP_MIN]
  omega

/-- `mqtt_output_send`, with the bytes TCP took. -/
def mqtt_output_send (tcp : Tcp) (rb : Ringbuf) : Ringbuf × List Byte :=
  let ringbuf_lin_len := rb.mqtt_ringbuf_linear_read_length
  if tcp.sndbuf = 0 ∨ ringbuf_lin_len = 0 then
    (rb, [])
  else
    let wrap := ringbuf_lin_len < tcp.sndbuf ∧ ringbuf_lin_len < rb.mqtt_ringbuf_len
    let sent := rb.writeOut tcp.write (LWIP_MIN tcp.sndbuf ringbuf_lin_len) (min_linear_lt _ rb)
    if tcp.write = .ERR_OK ∧ wrap then
      let next := sent.1.writeOut tcp.writeAfter
        (LWIP_MIN tcp.sndbufAfter sent.1.mqtt_ringbuf_linear_read_length) (min_linear_lt _ sent.1)
      (next.1, sent.2 ++ next.2)
    else
      sent

/-! ## what is appended -/

section Append

variable (rb : Ringbuf)

/-- A `u16_t`, most significant byte first. -/
def u16Bytes (value : BitVec 16) : List Byte := [(value >>> 8).setWidth 8, value.setWidth 8]

/-- A string behind its length. -/
def stringBytes (str : List Byte) : List Byte := u16Bytes (BitVec.ofNat 16 str.length) ++ str

def fixedHeader (msg_type fdup fqos fretain : Byte) (r_length : BitVec 16) : List Byte :=
  controlByte msg_type fdup fqos fretain :: remainingLength r_length

@[simp] theorem length_u16Bytes (value : BitVec 16) : (u16Bytes value).length = 2 := rfl

@[simp] theorem length_stringBytes (str : List Byte) :
    (stringBytes str).length = 2 + str.length := by
  simp [stringBytes]

@[simp] theorem append_buf_append_buf (data more : List Byte) :
    mqtt_output_append_buf more (mqtt_output_append_buf data rb) =
      mqtt_output_append_buf (data ++ more) rb := by
  simp [mqtt_output_append_buf]

@[simp] theorem append_u8_eq (value : Byte) :
    mqtt_output_append_u8 value rb = mqtt_output_append_buf [value] rb := rfl

@[simp] theorem append_u16_eq (value : BitVec 16) :
    mqtt_output_append_u16 value rb = mqtt_output_append_buf (u16Bytes value) rb := rfl

@[simp] theorem append_string_eq (str : List Byte) :
    mqtt_output_append_string str rb = mqtt_output_append_buf (stringBytes str) rb := by
  simp [mqtt_output_append_string, stringBytes]

@[simp] theorem append_fixed_header_eq (msg_type fdup fqos fretain : Byte)
    (r_length : BitVec 16) :
    mqtt_output_append_fixed_header msg_type fdup fqos fretain r_length rb =
      mqtt_output_append_buf (fixedHeader msg_type fdup fqos fretain r_length) rb := by
  simp [mqtt_output_append_fixed_header, fixedHeader]

/-- Appending, whatever is appended: what the ring can hold of it. -/
theorem pending_append_buf (data : List Byte) :
    (mqtt_output_append_buf data rb).pending =
      Fifo.wrap MQTT_OUTPUT_RINGBUF_SIZE (rb.pending ++ data) := by
  induction data generalizing rb with
  | nil =>
      rw [List.append_nil, Fifo.wrap_of_lt (length_pending_lt rb)]
      rfl
  | cons item data ih =>
      have hlen : (rb.pending ++ [item]).length ≤ MQTT_OUTPUT_RINGBUF_SIZE := by
        simpa using Nat.succ_le_of_lt (length_pending_lt rb)
      calc (mqtt_output_append_buf data (rb.mqtt_ringbuf_put item)).pending
          = Fifo.wrap MQTT_OUTPUT_RINGBUF_SIZE ((rb.mqtt_ringbuf_put item).pending ++ data) := ih _
        _ = Fifo.wrap MQTT_OUTPUT_RINGBUF_SIZE (rb.pending ++ [item] ++ data) := by
            rw [pending_put, Fifo.wrap_wrap_append (by decide) hlen]
        _ = Fifo.wrap MQTT_OUTPUT_RINGBUF_SIZE (rb.pending ++ item :: data) := by simp

/-- The number of bytes of the remaining length field. -/
theorem length_remainingLength (r_length : BitVec 16) :
    (remainingLength r_length).length =
      if r_length.toNat < 128 then 1 else if r_length.toNat < 16384 then 2 else 3 := by
  induction r_length using remainingLength.induct with
  | case1 r_length h ih =>
      have hlt := r_length.isLt
      rw [remainingLength, dif_pos h, List.length_cons, ih, toNat_shift]
      rw [shift_pos] at h
      grind
  | case2 r_length h =>
      rw [remainingLength, dif_neg h, List.length_singleton, if_pos]
      rw [shift_pos] at h
      omega

theorem toNat_countLength (total_len r_length : BitVec 16) :
    (countLength total_len r_length).toNat =
      (total_len.toNat + (remainingLength r_length).length) % 65536 := by
  induction total_len, r_length using countLength.induct with
  | case1 total_len r_length h ih =>
      have hcons := congrArg List.length (remainingLength.eq_1 r_length)
      rw [dif_pos h, List.length_cons] at hcons
      rw [countLength, dif_pos h, ih, hcons]
      simp
      omega
  | case2 total_len r_length h =>
      have hone := congrArg List.length (remainingLength.eq_1 r_length)
      rw [dif_neg h, List.length_singleton] at hone
      rw [countLength, dif_neg h, hone]
      simp

/-- The size of a message with this remaining length. -/
def messageSize (r_length : BitVec 16) : Nat :=
  1 + (remainingLength r_length).length + r_length.toNat

/-- `mqtt_output_check_space` compares the size of the message with the free space,
but for the largest sizes: their 16-bit sum wraps, and three free bytes will do. -/
theorem mqtt_output_check_space_iff (r_length : BitVec 16) :
    mqtt_output_check_space r_length rb ↔
      rb.pending.length + messageSize r_length ≤ MQTT_OUTPUT_RINGBUF_SIZE ∨
        65532 ≤ r_length.toNat ∧
          rb.pending.length + (r_length.toNat - 65532) ≤ MQTT_OUTPUT_RINGBUF_SIZE := by
  have hlt := r_length.isLt
  have hpending := length_pending_lt rb
  have hlen := length_remainingLength r_length
  unfold MQTT_OUTPUT_RINGBUF_SIZE at *
  unfold mqtt_output_check_space Ringbuf.mqtt_ringbuf_free messageSize MQTT_OUTPUT_RINGBUF_SIZE
  rw [toNat_countLength, toNat_mqtt_ringbuf_len, decide_eq_true_iff, hlen]
  simp
  split
  · omega
  · split <;> omega

end Append

/-! ## what is sent -/

/-- Writing out takes the first bytes of the queue, or none. -/
theorem writeOut_spec (rb : Ringbuf) (err : LwipErr) {send_len : BitVec 16}
    (h : send_len.toNat < MQTT_OUTPUT_RINGBUF_SIZE)
    (hlin : send_len.toNat ≤ rb.mqtt_ringbuf_linear_read_length.toNat) :
    (rb.writeOut err send_len h).2 ++ (rb.writeOut err send_len h).1.pending = rb.pending := by
  rw [toNat_linear_read_length] at hlin
  have hheld : send_len.toNat ≤ rb.pending.length := by omega
  have hget := rb.get_lt
  unfold Ringbuf.writeOut
  split
  · dsimp only
    have hblock : Mem.load rb.buf rb.get.toNat send_len.toNat =
        rb.pending.take send_len.toNat := by
      rw [Ringbuf.pending, Fifo.length_held] at hheld
      exact (Fifo.take_held hheld (by omega)).symm
    rw [pending_advance rb h hheld, hblock, List.take_append_drop]
  · simp

/-- Sending moves the first bytes of the queue to TCP: none is lost, sent twice or
out of turn. -/
theorem mqtt_output_send_spec (tcp : Tcp) (rb : Ringbuf) :
    (mqtt_output_send tcp rb).2 ++ (mqtt_output_send tcp rb).1.pending = rb.pending := by
  have hmin (n : BitVec 16) (rb : Ringbuf) :
      (LWIP_MIN n rb.mqtt_ringbuf_linear_read_length).toNat ≤
        rb.mqtt_ringbuf_linear_read_length.toNat := by
    rw [toNat_LWIP_MIN]
    omega
  have hfirst := writeOut_spec rb tcp.write (min_linear_lt tcp.sndbuf rb) (hmin _ rb)
  unfold mqtt_output_send
  dsimp only
  split
  · simp
  split
  · rw [List.append_assoc, writeOut_spec _ tcp.writeAfter _ (hmin _ _), hfirst]
  · exact hfirst

end Enc28j60.Mqtt
