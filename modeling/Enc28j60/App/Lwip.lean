import Enc28j60.App.State

/-!
# Enc28j60.App.Lwip

lwIP under the application: `timeouts.c`, the outcome of a query of `dns.c`, the
client of `mqtt.c`, and the callbacks of `main.c` they call.

Each function is one atomic update `App → App`: of what the TIM2 handler changes
it reads `sys_now()` at most once, so a tick in the middle of it is a tick before
or after it.  A callback that never returns sets `hung`, and what would have
come after the call is left out (`thenRun`).
-/

namespace Enc28j60.App

/-- `f`, then `g` if `f` returned. -/
def thenRun (f g : App → App) (s : App) : App := if (f s).hung then f s else g (f s)

/-! ## timeouts -/

/-- `TIME_LESS_THAN`: the difference exceeds `LWIP_MAX_TIMEOUT`. -/
abbrev TIME_LESS_THAN (t compare_to : BitVec 32) : Prop := Deadlines.before t compare_to

/-- `sys_timeout_abs`; an empty pool leaves no trace. -/
def Timers.sys_timeout_abs (abs_time : BitVec 32) (h : Handler) (t : Timers) : Timers :=
  if t.free = 0 then
    { t with requests := t.requests ++ [(h, false)] }
  else
    { t with
      next_timeout := Deadlines.insert ⟨abs_time, h⟩ t.next_timeout
      free := t.free - 1
      requests := t.requests ++ [(h, true)] }

@[simp] theorem sys_timeout_abs_active (abs_time : BitVec 32) (h : Handler) (t : Timers) :
    (t.sys_timeout_abs abs_time h).tcpip_tcp_timer_active = t.tcpip_tcp_timer_active := by
  unfold Timers.sys_timeout_abs
  split
  · rfl
  · rfl

/-- `sys_untimeout`: the first entry of `h` goes back to the pool. -/
def Timers.sys_untimeout (h : Handler) (t : Timers) : Timers :=
  if t.next_timeout.any (·.handler = h) then
    { t with
      next_timeout := t.next_timeout.eraseP (·.handler = h)
      free := t.free + 1 }
  else
    t

/-- `sys_timeout`. -/
def sys_timeout (msecs : BitVec 32) (h : Handler) (s : App) : App :=
  { s with timers := s.timers.sys_timeout_abs (s.clock.millisec + msecs) h }

/-- `tcp_active_pcbs || tcp_tw_pcbs`. -/
def pcbs (s : App) : Bool := s.client.conn || s.net.otherPcbs

/-- `tcp_timer_needed`. -/
def tcp_timer_needed (s : App) : App :=
  if ¬s.timers.tcpip_tcp_timer_active ∧ pcbs s then
    sys_timeout 250 .tcpip_tcp_timer
      { s with timers := { s.timers with tcpip_tcp_timer_active := true } }
  else
    s

/-! ## the callbacks of `main.c` -/

def mqttBrokerName : String := "broker.emqx.io"

/-- `ipObtained`. -/
def ipObtained (name : String) (ipaddr : Option IpAddr) (s : App) : App :=
  if mqttBrokerName = name then
    match ipaddr with
    | some addr => { s with brokerIp := addr, myConn := .DNS_IP_OBTAINED }
    | none => { s with brokerIp := s.nullWord, nullRead := true, myConn := .DNS_IP_OBTAINED }
  else
    s

/-- `myMqttClientCallBack`; its `default` case is `while (1)`. -/
def myMqttClientCallBack (status : Status) (s : App) : App :=
  let s := { s with statuses := s.statuses ++ [status] }
  if status = MQTT_CONNECT_ACCEPTED then
    { s with myConn := .MQTT_CONNECTED }
  else if status = MQTT_CONNECT_DISCONNECTED then
    { s with myConn := .MQTT_DISCONNECTED }
  else
    { s with hung := true }

/-- `publishIncoming`, which prints. -/
def publishIncoming (tot_len : BitVec 32) (m : Incoming) : Incoming :=
  { m with announced := some tot_len }

/-- `mqtt_data_cb`; `last` is `MQTT_DATA_FLAG_LAST`. -/
def mqtt_data_cb (len : BitVec 16) (last : Bool) (m : Incoming) : Incoming :=
  let m := { m with rx_bytes := m.rx_bytes + len.setWidth 32, got := m.got + len.toNat }
  if last then
    { m with
      reports := m.reports ++ [⟨m.announced, m.rx_bytes, m.cut⟩]
      rx_bytes := 0, announced := none, got := 0, cut := 0 }
  else
    m

/-! ## DNS -/

/-- `dns_call_found` for the query, which ends with it. -/
def dns_call_found (ipaddr : Option IpAddr) (s : App) : App :=
  match s.dns.query with
  | some name =>
      ipObtained name ipaddr
        { s with dns := { query := none, outcomes := s.dns.outcomes ++ [.called ipaddr] } }
  | none => s

/-- The end of a query changes the resolution, and `myConn`. -/
theorem dns_call_found_eq (ipaddr : Option IpAddr) (s : App) :
    ∃ dns ip c read, dns_call_found ipaddr s =
      { s with dns := dns, brokerIp := ip, myConn := c, nullRead := read } := by
  unfold dns_call_found ipObtained
  split
  · split
    · cases ipaddr with
      | none => exact ⟨_, _, _, _, rfl⟩
      | some ip => exact ⟨_, _, _, _, rfl⟩
    · exact ⟨_, _, _, _, rfl⟩
  · exact ⟨_, _, _, _, rfl⟩

/-- `dns_tmr`: `dns_check_entry` gives a query up after its last retry. -/
def dns_tmr (s : App) : App := if s.net.dnsTimeout then dns_call_found none s else s

/-- `dns_gethostbyname`. -/
def dns_gethostbyname (name : String) (s : App) : App :=
  let res := s.net.dnsResult
  { s with dns :=
    { query := if res.1 = .ERR_INPROGRESS then some name else s.dns.query
      outcomes := s.dns.outcomes ++ [.returned res.1 res.2] } }

/-! ## the MQTT client -/

/-- Set the two counters of the cyclic timer. -/
def watch (cyclic_tick server_watchdog : BitVec 16) (s : App) : App :=
  { s with client :=
    { s.client with cyclic_tick := cyclic_tick, server_watchdog := server_watchdog } }

/-- `mqtt_close`.  A message received in part ends here: no callback of the
connection is left, and the next one starts with an empty parser. -/
def mqtt_close (reason : Status) (s : App) : App :=
  let s := { s with
    client := { s.client with conn := false }
    timers := s.timers.sys_untimeout .mqtt_cyclic_timer
    incoming := { s.incoming with
      announced := none, got := 0, cut := s.incoming.cut + s.incoming.got } }
  if s.client.conn_state ≠ .TCP_DISCONNECTED then
    myMqttClientCallBack reason
      { s with client := { s.client with conn_state := .TCP_DISCONNECTED } }
  else
    s

/-- `myConn` after a callback with `status`. -/
def Connection_State.after (status : Status) (c : Connection_State) : Connection_State :=
  if status = MQTT_CONNECT_ACCEPTED then .MQTT_CONNECTED
  else if status = MQTT_CONNECT_DISCONNECTED then .MQTT_DISCONNECTED
  else c

/-- The statuses `myMqttClientCallBack` returns for. -/
def Handled (status : Status) : Prop :=
  status = MQTT_CONNECT_ACCEPTED ∨ status = MQTT_CONNECT_DISCONNECTED

instance (status : Status) : Decidable (Handled status) :=
  inferInstanceAs (Decidable (_ ∨ _))

theorem myMqttClientCallBack_eq (status : Status) (s : App) :
    myMqttClientCallBack status s =
      { s with
        statuses := s.statuses ++ [status]
        myConn := s.myConn.after status
        hung := s.hung || ¬Handled status } := by
  unfold myMqttClientCallBack Connection_State.after Handled
  by_cases hacc : status = MQTT_CONNECT_ACCEPTED
  · simp [hacc]
  · by_cases hdis : status = MQTT_CONNECT_DISCONNECTED
    · simp [hdis, show MQTT_CONNECT_DISCONNECTED ≠ MQTT_CONNECT_ACCEPTED by decide]
    · simp [hacc, hdis]

/-- What `mqtt_close` changes. -/
theorem mqtt_close_eq (reason : Status) (s : App) :
    mqtt_close reason s =
      { s with
        client := { s.client with conn := false, conn_state := .TCP_DISCONNECTED }
        timers := s.timers.sys_untimeout .mqtt_cyclic_timer
        incoming := { s.incoming with
          announced := none, got := 0, cut := s.incoming.cut + s.incoming.got }
        statuses :=
          if s.client.conn_state ≠ .TCP_DISCONNECTED then s.statuses ++ [reason] else s.statuses
        myConn :=
          if s.client.conn_state ≠ .TCP_DISCONNECTED then s.myConn.after reason else s.myConn
        hung :=
          if s.client.conn_state ≠ .TCP_DISCONNECTED then s.hung || ¬Handled reason
          else s.hung } := by
  unfold mqtt_close
  dsimp only
  split
  · rw [myMqttClientCallBack_eq]
  · rename_i hstate
    rw [Decidable.not_not.mp hstate]

/-- The rest of `mqtt_cyclic_timer` in `MQTT_CONNECTED`: a PINGREQ, when it is time. -/
def keepAlive (s : App) : App :=
  let tick := s.client.cyclic_tick + 1
  if s.client.keep_alive.toNat ≤ tick.toNat * 5 ∧ s.net.outputSpace then
    watch 0 s.client.server_watchdog s
  else
    watch tick s.client.server_watchdog s

/-- `mqtt_cyclic_timer`. -/
def mqtt_cyclic_timer (s : App) : App :=
  match s.client.conn_state with
  | .MQTT_CONNECTING =>
      let tick := s.client.cyclic_tick + 1
      let s := watch tick s.client.server_watchdog s
      if 100 ≤ tick.toNat * 5 then
        mqtt_close MQTT_CONNECT_TIMEOUT s
      else
        sys_timeout 5000 .mqtt_cyclic_timer s
  | .MQTT_CONNECTED =>
      if 0 < s.client.keep_alive then
        let watchdog := s.client.server_watchdog + 1
        let limit := s.client.keep_alive.toNat + s.client.keep_alive.toNat / 2
        let s := watch s.client.cyclic_tick watchdog s
        if limit < watchdog.toNat * 5 then
          thenRun (mqtt_close MQTT_CONNECT_TIMEOUT) keepAlive s
        else
          sys_timeout 5000 .mqtt_cyclic_timer (keepAlive s)
      else
        sys_timeout 5000 .mqtt_cyclic_timer s
  | _ => s

/-- The CONNACK that accepts. -/
def accepted (s : App) : App :=
  myMqttClientCallBack MQTT_CONNECT_ACCEPTED
    { s with client := { s.client with cyclic_tick := 0, conn_state := .MQTT_CONNECTED } }

theorem accepted_eq (s : App) :
    accepted s =
      { s with
        client := { s.client with cyclic_tick := 0, conn_state := .MQTT_CONNECTED }
        statuses := s.statuses ++ [MQTT_CONNECT_ACCEPTED]
        myConn := .MQTT_CONNECTED } := by
  simp [accepted, myMqttClientCallBack]

/-- The first part of a PUBLISH, before its payload. -/
def announce (tot_len : BitVec 32) (s : App) : App :=
  { s with incoming :=
    if s.client.callbacks then publishIncoming tot_len s.incoming else s.incoming }

/-- The payload in a part of a PUBLISH; an empty one is passed on only at the end. -/
def passOn (payload_length : BitVec 16) (remaining_length : BitVec 32) (m : Incoming) : Incoming :=
  if 0 < payload_length ∨ remaining_length = 0 then
    mqtt_data_cb payload_length (remaining_length = 0) m
  else
    m

/-- A part of a PUBLISH, after its header, and the parser after it. -/
def received (payload_length : BitVec 16) (remaining_length : BitVec 32) (s : App) : App :=
  { s with
    client := { s.client with
      remaining := if remaining_length = 0 then none else some remaining_length }
    incoming :=
      if s.client.callbacks then passOn payload_length remaining_length s.incoming
      else s.incoming }

/-- What the parser can be in front of. -/
def Frame.fits : Frame → Option (BitVec 32) → Bool
  | payload len, some remaining => len.setWidth 32 ≤ remaining
  | payload _, none => false
  | malformed, _ => true
  | _, remaining => remaining.isNone

/-- `mqtt_message_received`, with its result. -/
def mqtt_message_received : Frame → App → Status × App
  | .connack code, s =>
      if s.client.conn_state = .MQTT_CONNECTING then
        if code = 0 then (MQTT_CONNECT_ACCEPTED, accepted s) else (code.setWidth 16, s)
      else
        (MQTT_CONNECT_ACCEPTED, s)
  | .publish payload_length remaining_length, s =>
      (MQTT_CONNECT_ACCEPTED, received payload_length remaining_length
        (announce (remaining_length + payload_length.setWidth 32) s))
  | .payload payload_length, s =>
      match s.client.remaining with
      | some msg_rem_len =>
          (MQTT_CONNECT_ACCEPTED,
            received payload_length (msg_rem_len - payload_length.setWidth 32) s)
      | none => (MQTT_CONNECT_ACCEPTED, s)
  | .malformed, s => (MQTT_CONNECT_DISCONNECTED, s)
  | .other, s => (MQTT_CONNECT_ACCEPTED, s)

/-- `mqtt_parse_incoming`; what the parser cannot be in front of is skipped. -/
def mqtt_parse_incoming : List Frame → App → Status × App
  | [], s => (MQTT_CONNECT_ACCEPTED, s)
  | frame :: next, s =>
      if frame.fits s.client.remaining then
        let res := mqtt_message_received frame s
        if res.1 ≠ MQTT_CONNECT_ACCEPTED then res else mqtt_parse_incoming next res.2
      else
        mqtt_parse_incoming next s

/-- The end of `mqtt_tcp_recv_cb`. -/
def resetWatchdog (s : App) : App :=
  if s.client.keep_alive ≠ 0 then watch s.client.cyclic_tick 0 s else s

/-- `mqtt_tcp_recv_cb` with data. -/
def mqtt_tcp_recv_cb (frames : List Frame) (s : App) : App :=
  let res := mqtt_parse_incoming frames s
  thenRun (fun s => if res.1 ≠ MQTT_CONNECT_ACCEPTED then mqtt_close res.1 s else s)
    resetWatchdog res.2

/-- `mqtt_tcp_sent_cb`. -/
def mqtt_tcp_sent_cb (s : App) : App :=
  if s.client.conn_state = .MQTT_CONNECTED then watch 0 0 s else s

/-- `mqtt_tcp_err_cb`: the pcb is already gone. -/
def mqtt_tcp_err_cb (s : App) : App :=
  mqtt_close MQTT_CONNECT_DISCONNECTED { s with client := { s.client with conn := false } }

/-- `mqtt_tcp_connect_cb` has set the callbacks of the connection. -/
def receiving (s : App) : Prop :=
  s.client.conn ∧
    (s.client.conn_state = .MQTT_CONNECTING ∨ s.client.conn_state = .MQTT_CONNECTED)

instance (s : App) : Decidable (receiving s) := inferInstanceAs (Decidable (_ ∧ _))

def tcpEvent : TcpEvent → App → App
  | .recv frames, s => if receiving s then mqtt_tcp_recv_cb frames s else s
  | .fin, s => if receiving s then mqtt_close MQTT_CONNECT_DISCONNECTED s else s
  | .sent, s => if receiving s then mqtt_tcp_sent_cb s else s
  | .err, s => if s.client.conn then mqtt_tcp_err_cb s else s

def tcpEvents : List TcpEvent → App → App
  | [], s => s
  | e :: next, s => thenRun (tcpEvent e) (tcpEvents next) s

/-- `mqtt_tcp_connect_cb`. -/
def mqtt_tcp_connect_cb (s : App) : App :=
  let s := sys_timeout 5000 .mqtt_cyclic_timer
    { s with client := { s.client with remaining := none, conn_state := .MQTT_CONNECTING } }
  { s with client := { s.client with cyclic_tick := 0 } }

/-- `mqtt_client_connect`.  The client is wiped but for its callbacks; a failure
leaves it so. -/
def mqtt_client_connect (s : App) : LwipErr × App :=
  let s := { s with attempts := s.attempts ++ [s.clock.ticks] }
  if s.client.conn_state ≠ .TCP_DISCONNECTED then
    (.ERR_ISCONN, s)
  else
    let s := { s with client := { keep_alive := 60, callbacks := s.client.callbacks } }
    if s.net.connectResult = .ERR_OK then
      let s := tcp_timer_needed { s with client := { s.client with conn := true } }
      (.ERR_OK, { s with client := { s.client with conn_state := .TCP_CONNECTING } })
    else
      (s.net.connectResult, s)

/-- `mqtt_set_inpub_callback`. -/
def mqtt_set_inpub_callback (s : App) : App :=
  { s with client := { s.client with callbacks := true } }

/-- `mqtt_publish` and `mqtt_sub_unsub`: what is left to the request list and the
output buffer is `result`. -/
def request (result : LwipErr) (s : App) : LwipErr × App :=
  (if s.client.conn_state = .TCP_DISCONNECTED then .ERR_CONN else result,
    { s with misused := s.misused || s.client.conn_state ≠ .MQTT_CONNECTED })

def mqtt_publish (s : App) : LwipErr × App := request s.net.publishResult s

def mqtt_subscribe (s : App) : LwipErr × App := request s.net.subscribeResult s

/-! ## what runs in the main loop -/

/-- `lwip_cyclic_timers[i].handler`.  Only `dns_tmr` calls the application. -/
def CyclicTimer.handler : CyclicTimer → App → App
  | dns_tmr => App.dns_tmr
  | _ => id

theorem handler_eq (cyclic : CyclicTimer) (s : App) :
    ∃ dns ip c read, cyclic.handler s =
      { s with dns := dns, brokerIp := ip, myConn := c, nullRead := read } := by
  cases cyclic with
  | dns_tmr =>
      show ∃ dns ip c read, dns_tmr s = _
      unfold dns_tmr
      split
      · exact dns_call_found_eq none s
      · exact ⟨_, _, _, _, rfl⟩
  | ip_reass_tmr => exact ⟨_, _, _, _, rfl⟩
  | etharp_tmr => exact ⟨_, _, _, _, rfl⟩
  | dhcp_coarse_tmr => exact ⟨_, _, _, _, rfl⟩
  | dhcp_fine_tmr => exact ⟨_, _, _, _, rfl⟩

def Calls.fromLoop (cyclic : CyclicTimer) (n : Calls) : Calls :=
  { n with loop := fun c => if c = cyclic then n.loop c + 1 else n.loop c }

def Calls.fromTimeout (cyclic : CyclicTimer) (n : Calls) : Calls :=
  { n with timeouts := fun c => if c = cyclic then n.timeouts c + 1 else n.timeouts c }

/-- `lwip_cyclic_timer`. -/
def lwip_cyclic_timer (cyclic : CyclicTimer) (s : App) : App :=
  let s := cyclic.handler { s with calls := s.calls.fromTimeout cyclic }
  let now := s.clock.millisec
  let interval_ms := BitVec.ofNat 32 cyclic.interval_ms
  let next_timeout_time := s.timers.current_timeout_due_time + interval_ms
  let abs_time :=
    if TIME_LESS_THAN next_timeout_time now then now + interval_ms else next_timeout_time
  { s with timers := s.timers.sys_timeout_abs abs_time (.lwip_cyclic_timer cyclic) }

/-- `tcpip_tcp_timer`, after `tcp_tmr`. -/
def restartTcpTimer (s : App) : App :=
  if pcbs s then
    sys_timeout 250 .tcpip_tcp_timer s
  else
    { s with timers := { s.timers with tcpip_tcp_timer_active := false } }

/-- `tcpip_tcp_timer`. -/
def tcpip_tcp_timer (s : App) : App := thenRun (tcpEvents s.net.tmrEvents) restartTcpTimer s

def Handler.call : Handler → App → App
  | lwip_cyclic_timer cyclic => App.lwip_cyclic_timer cyclic
  | tcpip_tcp_timer => App.tcpip_tcp_timer
  | mqtt_cyclic_timer => App.mqtt_cyclic_timer

/-- The head of the list goes back to the pool. -/
def Timers.pop (t : Timers) (due : BitVec 32) (next : List Timeout) : Timers :=
  { t with next_timeout := next, free := t.free + 1, current_timeout_due_time := due }

/-- One round of `sys_check_timeouts`; the value says that there was one. -/
def checkTimeout (now : BitVec 32) (s : App) : Bool × App :=
  match s.timers.next_timeout with
  | [] => (false, s)
  | tmptimeout :: next =>
      if TIME_LESS_THAN now tmptimeout.time then
        (false, s)
      else
        (true, tmptimeout.handler.call { s with timers := s.timers.pop tmptimeout.time next })

/-- What lwIP does with a received packet. -/
def input : Packet → App → App
  | .dns ipaddr, s => dns_call_found ipaddr s
  | .synAck, s =>
      if s.client.conn ∧ s.client.conn_state = .TCP_CONNECTING then mqtt_tcp_connect_cb s else s
  | .tcp e, s => tcpEvent e s
  | .other, s => s

end Enc28j60.App
