import Enc28j60.App.Lwip
import Enc28j60.Lib.Resumption

/-!
# Enc28j60.App.Loop

The main loop of `main.c` on the application side, and what runs beside it.

The loop is a program in `Res`: one action for each access to what the TIM2
handler also changes, and for each call into lwIP.  The handler may run between
any two of them.  The Ethernet side is the module `Main`; here it is the packets
it hands to lwIP, whichever the oracle says.
-/

namespace Enc28j60.App

abbrev Prog := Res App

/-- Call a function that may never return. -/
def call (f : App → App) : Prog Unit := do
  let hung ← Res.act fun s => ((f s).hung, f s)
  if hung then .stuck else pure ()

/-! ## the timers of the loop -/

/-- The loop's own call of a handler. -/
def loopCall (cyclic : CyclicTimer) (s : App) : App :=
  cyclic.handler { s with calls := s.calls.fromLoop cyclic }

/-- `if (counter >= limit) { counter = 0; handler (); }`. -/
def loopTimer (due : App → Bool) (reset : Clock → Clock) (cyclic : CyclicTimer) :
    Prog Unit := do
  let run ← Res.gets due
  if run then do
    Res.modify fun s => { s with clock := reset s.clock }
    call (loopCall cyclic)
  else
    pure ()

def fineTimer : Prog Unit :=
  loopTimer (fun s => 1 ≤ s.clock.u32FinerTimer) (fun k => { k with u32FinerTimer := 0 })
    .dhcp_fine_tmr

def coarseTimer : Prog Unit :=
  loopTimer (fun s => 120 ≤ s.clock.u32CoarseTimer) (fun k => { k with u32CoarseTimer := 0 })
    .dhcp_coarse_tmr

def dnsTimer : Prog Unit :=
  loopTimer (fun s => 2 ≤ s.clock.timeForDns && s.enableDns) (fun k => { k with timeForDns := 0 })
    .dns_tmr

def etharpTimer : Prog Unit :=
  loopTimer (fun s => 2 ≤ s.clock.timerForEtharp) (fun k => { k with timerForEtharp := 0 })
    .etharp_tmr

/-- One round of `sys_check_timeouts`. -/
def checkRound (now : BitVec 32) : Prog Bool := do
  let (again, hung) ← Res.act fun s =>
    (((checkTimeout now s).1, (checkTimeout now s).2.hung), (checkTimeout now s).2)
  if hung then .stuck else pure again

/-- `sys_check_timeouts`: what has expired when it starts. -/
def sys_check_timeouts (fuel : Nat) : Prog Unit := do
  let now ← Res.gets fun s => s.clock.millisec
  Res.pollWhile (checkRound now) fuel

/-! ## the connection state machine -/

/-- `case START_UP`. -/
def startUp (s : App) : App :=
  if s.net.dhcp_supplied_address then
    { dns_gethostbyname mqttBrokerName s with enableDns := true, myConn := .DHCP_IP_RECEIVED }
  else
    s

/-- `if (ERR_OK == mqtt_client_connect (...)) { ... }`. -/
def connect (s : App) : App :=
  let res := mqtt_client_connect s
  if res.1 = .ERR_OK then
    { res.2 with myConn := .MQTT_CONNECTING, bSubscribed := false, subscribed := [] }
  else
    res.2

/-- `lastReconnectAttempt = sys_now()`. -/
def record (s : App) : App :=
  { s with lastReconnectAttempt := s.clock.millisec, recorded := s.recorded ++ [s.clock.ticks] }

/-- `case MQTT_DISCONNECTED: case DNS_IP_OBTAINED`.  The clock is read again for
the record of the attempt. -/
def reconnect : Prog Unit := do
  let elapsed ← Res.gets fun s => s.clock.millisec - s.lastReconnectAttempt
  if 3000 < elapsed then do
    Res.modify record
    Res.modify connect
  else
    pure ()

/-- The publication; its result is dropped. -/
def publish (s : App) : App := (mqtt_publish s).2

def publishDue : Prog Unit := do
  let due ← Res.gets fun s => decide (10 ≤ s.clock.u32MqttCounter)
  if due then do
    Res.modify fun s => { s with clock := { s.clock with u32MqttCounter := 0 } }
    Res.modify publish
  else
    pure ()

/-- `if (bSubscribed == false) { ... }`; the result of the request is dropped. -/
def subscribe (s : App) : App :=
  if s.bSubscribed = false then
    let res := mqtt_subscribe (mqtt_set_inpub_callback { s with bSubscribed := true })
    { res.2 with subscribed := s.subscribed ++ [res.1] }
  else
    s

/-- `switch (myConn)`. -/
def stateSwitch : Prog Unit := do
  let myConn ← Res.act fun s => (s.myConn, { s with at_ := .elsewhere })
  match myConn with
  | .START_UP => Res.modify startUp
  | .DHCP_IP_RECEIVED => pure ()
  | .MQTT_DISCONNECTED => reconnect
  | .DNS_IP_OBTAINED => reconnect
  | .MQTT_CONNECTING => pure ()
  | .MQTT_CONNECTED => do
      publishDue
      Res.modify subscribe

/-! ## the loop -/

def inputAll : List Packet → Prog Unit
  | [] => pure ()
  | p :: next => do
      call (input p)
      inputAll next

/-- The interrupt pass hands what it received to lwIP. -/
def netInput : Prog Unit := do
  let packets ← Res.gets fun s => s.net.packets
  inputAll packets

/-- The body of the main loop. -/
def loopBody (fuel : Nat) : Prog Unit := do
  fineTimer
  coarseTimer
  dnsTimer
  etharpTimer
  sys_check_timeouts fuel
  Res.modify fun s => { s with at_ := .switch }
  stateSwitch
  netInput

/-- `sys_timeouts_init`, for the entries `cyclic`. -/
def startTimers : List CyclicTimer → Prog Unit
  | [] => pure ()
  | cyclic :: next => do
      Res.modify (sys_timeout (BitVec.ofNat 32 cyclic.interval_ms) (.lwip_cyclic_timer cyclic))
      startTimers next

/-- `lwip_init`; TIM2 is running by then. -/
def lwip_init : Prog Unit := startTimers lwip_cyclic_timers

/-! ## what runs beside the loop -/

/-- `HAL_TIM_PeriodElapsedCallback` for TIM2. -/
def tick (s : App) : App :=
  { s with clock :=
    { u32FinerTimer := s.clock.u32FinerTimer + 1
      u32CoarseTimer := s.clock.u32CoarseTimer + 1
      timeForDns := s.clock.timeForDns + 1
      u32MqttCounter := s.clock.u32MqttCounter + 1
      timerForEtharp := s.clock.timerForEtharp + 1
      millisec := s.clock.millisec + 500
      ticks := s.clock.ticks + 1 } }

/-- One step of the environment. -/
inductive Env : App → App → Prop
  | tick {s : App} : Env s (tick s)
  | net {s : App} (n : Net) : Env s { s with net := n }

/-- The time since TIM2 was started, in milliseconds. -/
def elapsed (s : App) : Nat := 500 * s.clock.ticks

/-- Power-on, with `pool` elements in `MEMP_SYS_TIMEOUT`. -/
def initial (pool : Nat) (word : IpAddr) (net : Net) : App :=
  { timers := { free := pool }, nullWord := word, net := net }

/-- The configurations of the firmware, from power-on. -/
def Reachable (pool : Nat) (c : Ctl App × App) : Prop :=
  ∃ fuel word net,
    Loop.Steps Env (loopBody fuel) (.run lwip_init, initial pool word net) c

end Enc28j60.App
