import Enc28j60.Lib.Deadlines

/-!
# Enc28j60.App.State

The data of the application side of `main.c`: the connection state machine, the
counters the TIM2 handler feeds, and as much of lwIP as they use (the timeout
list, one DNS query, one MQTT client).

The packets, the other TCP connections and the results of the calls that depend
on them are an oracle, `Net`, which the environment changes at will.  The last
fields of most records are *history*: no function reads them, they record what
the claims about whole runs speak of.
-/

namespace Enc28j60.App

/-! ## enumerations -/

/-- `err_enum_t`. -/
inductive LwipErr where
  | ERR_OK
  | ERR_MEM
  | ERR_BUF
  | ERR_TIMEOUT
  | ERR_RTE
  | ERR_INPROGRESS
  | ERR_VAL
  | ERR_WOULDBLOCK
  | ERR_USE
  | ERR_ALREADY
  | ERR_ISCONN
  | ERR_CONN
  | ERR_IF
  | ERR_ABRT
  | ERR_RST
  | ERR_CLSD
  | ERR_ARG
  deriving DecidableEq

/-- `enum Connection_State` of `main.c`. -/
inductive Connection_State where
  | START_UP
  | DHCP_IP_RECEIVED
  | DNS_IP_OBTAINED
  | MQTT_CONNECTING
  | MQTT_CONNECTED
  | MQTT_DISCONNECTED
  deriving DecidableEq

/-- The connection states of `mqtt.c`. -/
inductive ClientState where
  | TCP_DISCONNECTED
  | TCP_CONNECTING
  | MQTT_CONNECTING
  | MQTT_CONNECTED
  deriving DecidableEq

/-- `mqtt_connection_status_t`: the enumeration, and any byte of a CONNACK. -/
abbrev Status := BitVec 16

def MQTT_CONNECT_ACCEPTED : Status := 0
def MQTT_CONNECT_DISCONNECTED : Status := 256
def MQTT_CONNECT_TIMEOUT : Status := 257

/-- An `ip_addr_t` of this IPv4 build. -/
abbrev IpAddr := BitVec 32

/-! ## clock and timers -/

/-- What the TIM2 handler advances. -/
structure Clock where
  u32FinerTimer : BitVec 32 := 0
  u32CoarseTimer : BitVec 32 := 0
  u32MqttCounter : BitVec 32 := 0
  timeForDns : BitVec 8 := 0
  timerForEtharp : BitVec 8 := 0
  millisec : BitVec 32 := 0
  /-- History: the interrupts so far. -/
  ticks : Nat := 0

/-- `lwip_cyclic_timers` of this configuration, less the TCP timer. -/
inductive CyclicTimer where
  | ip_reass_tmr
  | etharp_tmr
  | dhcp_coarse_tmr
  | dhcp_fine_tmr
  | dns_tmr
  deriving DecidableEq

/-- The table in its order; `tcp_tmr` is started on demand. -/
def lwip_cyclic_timers : List CyclicTimer :=
  [.ip_reass_tmr, .etharp_tmr, .dhcp_coarse_tmr, .dhcp_fine_tmr, .dns_tmr]

/-- `interval_ms`. -/
def CyclicTimer.interval_ms : CyclicTimer → Nat
  | ip_reass_tmr => 1000
  | etharp_tmr => 1000
  | dhcp_coarse_tmr => 60000
  | dhcp_fine_tmr => 500
  | dns_tmr => 1000

/-- A `sys_timeout_handler` with its argument. -/
inductive Handler where
  | lwip_cyclic_timer (cyclic : CyclicTimer)
  | tcpip_tcp_timer
  | mqtt_cyclic_timer
  deriving DecidableEq

/-- `struct sys_timeo`. -/
abbrev Timeout := Deadlines.Deadline 32 Handler

/-- The state of `timeouts.c`; `free` counts what `MEMP_SYS_TIMEOUT` still holds. -/
structure Timers where
  next_timeout : List Timeout := []
  free : Nat
  current_timeout_due_time : BitVec 32 := 0
  tcpip_tcp_timer_active : Bool := false
  /-- History: each request, and whether the pool had an element for it. -/
  requests : List (Handler × Bool) := []

/-- History: how often a handler was called, by the main loop and from
`sys_check_timeouts`. -/
structure Calls where
  loop : CyclicTimer → Nat := fun _ => 0
  timeouts : CyclicTimer → Nat := fun _ => 0

/-! ## DNS -/

/-- How `dns_gethostbyname` returned, or what `ipObtained` was called with. -/
inductive DnsOutcome where
  | returned (err : LwipErr) (addr : IpAddr)
  | called (ipaddr : Option IpAddr)
  deriving DecidableEq

/-- The query for the broker. -/
structure Dns where
  /-- The name of the outstanding query. -/
  query : Option String := none
  /-- History. -/
  outcomes : List DnsOutcome := []

/-! ## the MQTT client -/

/-- `mqtt_client_t`.  `callbacks` says that `pub_cb` and `data_cb` are set;
`connect_cb` is whenever `conn_state` is not `TCP_DISCONNECTED`.  `remaining` is
the parser's: the bytes still to come of a PUBLISH received in part. -/
structure Client where
  conn : Bool := false
  conn_state : ClientState := .TCP_DISCONNECTED
  cyclic_tick : BitVec 16 := 0
  server_watchdog : BitVec 16 := 0
  keep_alive : BitVec 16 := 0
  callbacks : Bool := false
  remaining : Option (BitVec 32) := none

/-- What one call of `mqtt_message_received` is given. -/
inductive Frame where
  | connack (code : BitVec 8)
  /-- The first part of a PUBLISH: the payload in it, and what is still to come. -/
  | publish (payload_length : BitVec 16) (remaining_length : BitVec 32)
  /-- A later part. -/
  | payload (payload_length : BitVec 16)
  /-- Anything that is answered by `out_disconnect`. -/
  | malformed
  | other
  deriving DecidableEq

/-- What TCP does to the client's connection. -/
inductive TcpEvent where
  | recv (frames : List Frame)
  | fin
  | sent
  | err
  deriving DecidableEq

/-- A received packet, as far as the client and the query care. -/
inductive Packet where
  | dns (ipaddr : Option IpAddr)
  | synAck
  | tcp (e : TcpEvent)
  | other
  deriving DecidableEq

/-! ## incoming messages -/

/-- History: one report of `mqtt_data_cb`, with what was announced for the
message and the bytes then left over from messages a lost connection cut off. -/
structure Report where
  tot_len : Option (BitVec 32)
  rx_bytes : BitVec 32
  cut : Nat
  deriving DecidableEq

structure Incoming where
  rx_bytes : BitVec 32 := 0
  /-- History: the latest `tot_len`, while its message is being received. -/
  announced : Option (BitVec 32) := none
  /-- History: the bytes of the current message that `mqtt_data_cb` was given. -/
  got : Nat := 0
  /-- History: the same of the messages cut off since the last report. -/
  cut : Nat := 0
  reports : List Report := []

/-! ## the whole -/

/-- What is outside the firmware. -/
structure Net where
  dhcp_supplied_address : Bool := false
  dnsResult : LwipErr × IpAddr := (.ERR_INPROGRESS, 0)
  /-- The query's last retry has run out. -/
  dnsTimeout : Bool := false
  connectResult : LwipErr := .ERR_OK
  subscribeResult : LwipErr := .ERR_OK
  publishResult : LwipErr := .ERR_OK
  /-- `mqtt_output_check_space` for a PINGREQ. -/
  outputSpace : Bool := true
  /-- A connection other than the client's is active or in TIME-WAIT. -/
  otherPcbs : Bool := false
  /-- What `tcp_tmr` does to the client's connection. -/
  tmrEvents : List TcpEvent := []
  packets : List Packet := []

/-- Where control is, as far as a claim speaks of it. -/
inductive Place where
  | elsewhere
  /-- At the head of `switch (myConn)`. -/
  | switch
  deriving DecidableEq

end Enc28j60.App

namespace Enc28j60

/-- The state of the application side. -/
structure App where
  clock : App.Clock := {}
  timers : App.Timers
  client : App.Client := {}
  dns : App.Dns := {}
  incoming : App.Incoming := {}
  enableDns : Bool := false
  myConn : App.Connection_State := .START_UP
  bSubscribed : Bool := false
  lastReconnectAttempt : BitVec 32 := 0
  /-- `mqttBroker.ip`. -/
  brokerIp : App.IpAddr := 0
  /-- What a read through `NULL` yields: the first word of the vector table. -/
  nullWord : App.IpAddr
  net : App.Net := {}
  /-- `myMqttClientCallBack` is in its `while (1)`. -/
  hung : Bool := false
  at_ : App.Place := .elsewhere
  /-- History: `ipObtained` has read through `NULL`. -/
  nullRead : Bool := false
  /-- History: what `myMqttClientCallBack` was called with. -/
  statuses : List App.Status := []
  /-- History: the results of `mqtt_subscribe` since the last successful
  `mqtt_client_connect`. -/
  subscribed : List App.LwipErr := []
  /-- History: a publish or subscribe request was made to a client that was not
  connected. -/
  misused : Bool := false
  /-- History: the tick of each `lastReconnectAttempt = sys_now()`. -/
  recorded : List Nat := []
  /-- History: the tick of each call of `mqtt_client_connect`. -/
  attempts : List Nat := []
  calls : App.Calls := {}

end Enc28j60
