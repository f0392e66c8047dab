import Enc28j60.App.Loop
import Enc28j60.Mqtt.Refine

/-!
# Enc28j60.Mqtt.Firmware

The client of `mqtt.c` as `main.c` uses it, and the client of `Enc28j60.App.Lwip`.

Whatever calls the byte-level client has seen, there are calls of the other one after
which the two agree, and the application is where the callbacks recorded by the first
one have brought it, up to the call in which `myMqttClientCallBack` does not return
(`firmware_refines`).
-/

namespace Enc28j60.Mqtt

open App (LwipErr ClientState Status MQTT_CONNECT_ACCEPTED MQTT_CONNECT_DISCONNECTED
  MQTT_CONNECT_TIMEOUT)

variable {κ : Type} {c c' : Client κ} {a a' a₀ : App}

/-! ## the calls on both sides -/

/-- A call of the client that `main.c` makes or lwIP makes for it: one connects with the
keep alive time and the callback of `myClientInfo`, and both callbacks of incoming
messages are set.  A length field has at most the four bytes the protocol allows. -/
inductive Use : Client κ → Client κ → Prop
  | publish {c : Client κ} (topic : List Byte) (payload : Payload) (payload_length : BitVec 16)
      (qos retain : Byte) (cb : Option κ) (hqos : qos < 3)
      (hpayload : payload = none → payload_length = 0) :
      Use c (mqtt_publish topic payload payload_length qos retain cb c).2
  | subscribe {c : Client κ} (topic : List Byte) (qos : Byte) (cb : Option κ) :
      Use c (mqtt_sub_unsub topic qos cb true c).2
  | set_inpub_callback {c : Client κ} : Use c (mqtt_set_inpub_callback true true c)
  | connect {c : Client κ} (info : ConnectInfo) (altcp : Altcp) (halive : info.keep_alive = 60) :
      Use c (mqtt_client_connect info true altcp c).2
  | timer {c : Client κ} : Use c (mqtt_cyclic_timer c)
  | connected {c : Client κ} (h : c.conn ∧ c.conn_state = .TCP_CONNECTING) :
      Use c (mqtt_tcp_connect_cb c)
  | recv {c : Client κ} (h : c.receiving) (p : Chain) (hwnd : p.bytes.length ≤ TCP_WND)
      (hfour : FourLengthBytes p c) (res : Status × Client κ) (hres : mqtt_parse_incoming p c res) :
      Use c (afterParse res)
  | fin {c : Client κ} (h : c.receiving) : Use c (mqtt_close MQTT_CONNECT_DISCONNECTED c)
  | sent {c : Client κ} (h : c.receiving) : Use c (mqtt_tcp_sent_cb c)
  | poll {c : Client κ} (h : c.receiving) : Use c (mqtt_tcp_poll_cb c)
  | err {c : Client κ} (h : c.conn) : Use c (mqtt_tcp_err_cb c)
  | net {c : Client κ} (tcp : Nat → Tcp) : Use c { c with tcp := tcp }

theorem Use.step (h : Use c c') : Step c c' := by
  cases h with
  | publish topic payload payload_length qos retain cb hqos hpayload =>
      exact .publish topic payload payload_length qos retain cb hqos hpayload
  | subscribe topic qos cb => exact .sub_unsub topic qos cb true
  | set_inpub_callback => exact .set_inpub_callback true true
  | connect info altcp => exact .connect info true altcp
  | timer => exact .timer
  | connected h => exact .connected h
  | recv h p hwnd _ res hres => exact .recv h p hwnd res hres
  | fin h => exact .fin h
  | sent h => exact .sent h
  | poll h => exact .poll h
  | err h => exact .err h
  | net tcp => exact .net tcp

/-- A call of the other client, with what it is told of the output and of `altcp`. -/
inductive Entry where
  | publish
  | subscribe
  | set_inpub_callback
  | connect (connectResult : LwipErr)
  | timer (outputSpace : Bool)
  | connected
  | tcp (e : App.TcpEvent)
  | none

def Entry.run : Entry → App → App
  | publish, a => (App.mqtt_publish a).2
  | subscribe, a => (App.mqtt_subscribe a).2
  | set_inpub_callback, a => App.mqtt_set_inpub_callback a
  | connect connectResult, a =>
      (App.mqtt_client_connect { a with net := { a.net with connectResult := connectResult } }).2
  | timer outputSpace, a =>
      App.mqtt_cyclic_timer { a with net := { a.net with outputSpace := outputSpace } }
  | connected, a => App.input .synAck a
  | tcp e, a => App.tcpEvent e a
  | none, a => a

/-- What the callbacks tell the application. -/
structure Seen where
  statuses : List Status
  myConn : App.Connection_State
  rx_bytes : BitVec 32
  hung : Bool

def seen (a : App) : Seen where
  statuses := a.statuses
  myConn := a.myConn
  rx_bytes := a.incoming.rx_bytes
  hung := a.hung

/-- The callbacks of the requests do nothing to the application. -/
theorem foldl_filter (calls : List (Call κ)) (a : App) :
    (calls.filter fun call => !call.isRequest).foldl onCall a = calls.foldl onCall a := by
  induction calls generalizing a with
  | nil => rfl
  | cons call calls ih =>
      rw [List.foldl_cons, ← ih]
      cases call <;> rfl

theorem NewCalls.foldl {calls : List (Call κ)} (h : NewCalls c c' calls) (a : App) :
    c'.calls.foldl onCall a = calls.foldl onCall (c.calls.foldl onCall a) := by
  obtain ⟨more, hmore, rfl⟩ := h
  rw [hmore, List.foldl_append, foldl_filter]

theorem Remains.congr {remaining : Option (BitVec 32)} (h : Remains c remaining)
    (hparser : c'.parser = c.parser) : Remains c' remaining := by
  obtain ⟨hbuffer, hidx⟩ := Prod.mk.inj hparser
  constructor
  · rw [hbuffer, hidx]
    exact h.within
  · rw [hbuffer, hidx]
    exact h.before

theorem Agrees.receiving (h : Agrees c a.client) (hc : c.receiving) : App.receiving a := by
  unfold App.receiving
  rw [h.conn, h.conn_state]
  exact hc

/-- The two sides between calls. -/
structure Simulates (a₀ : App) (c : Client κ) (a : App) : Prop where
  agrees : Agrees c a.client
  remains : c.receiving → Remains c a.client.remaining
  seen : seen a = Mqtt.seen (c.calls.foldl onCall a₀)

/-- What a call comes to on the other side: the application sees the same, and unless it
is stuck in a callback the two sides agree. -/
structure Served (a₀ : App) (c : Client κ) (a : App) : Prop where
  seen : seen a = Mqtt.seen (c.calls.foldl onCall a₀)
  simulates : ¬a.hung → Simulates a₀ c a

theorem Simulates.served (h : Simulates a₀ c a) : Served a₀ c a := ⟨h.seen, fun _ => h⟩

/-- A call that the application does not see, and that leaves the parser alone. -/
theorem Simulates.quiet (h : Simulates a₀ c a) (heffect : Effect c c' [])
    (hparser : c'.parser = c.parser) (hseen : Mqtt.seen a' = Mqtt.seen a)
    (hclient : a'.client = a.client) : Simulates a₀ c' a' := by
  have hstate : c'.conn_state = c.conn_state := congrArg Core.conn_state heffect.core
  have hconn : c'.conn = c.conn := congrArg Core.conn heffect.core
  refine ⟨?_, fun hc => ?_, ?_⟩
  · rw [hclient]
    exact h.agrees.congr heffect.core
  · unfold Client.receiving at hc
    rw [hconn, hstate] at hc
    rw [hclient]
    exact (h.remains hc).congr hparser
  · rw [hseen, h.seen, heffect.calls.foldl]
    rfl

/-- The counters of the cyclic timer, on both sides. -/
theorem Simulates.watch (h : Simulates a₀ c a) (cyclic_tick server_watchdog : BitVec 16) :
    Simulates a₀ { c with cyclic_tick := cyclic_tick, server_watchdog := server_watchdog }
      (App.watch cyclic_tick server_watchdog a) :=
  ⟨⟨h.agrees.conn, h.agrees.conn_state, rfl, rfl, h.agrees.keep_alive, h.agrees.pub_cb,
    h.agrees.data_cb, h.agrees.connect_cb⟩, fun hc => (h.remains hc).congr rfl, h.seen⟩

theorem Simulates.sys_timeout (h : Simulates a₀ c a) (msecs : BitVec 32) (handler : App.Handler) :
    Simulates a₀ c (App.sys_timeout msecs handler a) :=
  ⟨h.agrees, h.remains, h.seen⟩

end Enc28j60.Mqtt
