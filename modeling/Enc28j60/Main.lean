import Enc28j60.Driver

/-!
# Enc28j60.Main

The Ethernet side of `main.c`: `enc28j60_translate`, the interrupt pass of the
main loop, and what runs beside them.

lwIP is an oracle here.  Wherever it may send (a timer, the connection state
machine, `netif_input`), `linkOutput` sends the frames it offers; `pbuf_alloc`
answers what the world says.  The environment `Env` changes both at will, lets
the chip act and runs the EXTI handler, between any two actions of the loop.
-/

namespace Enc28j60

/-! ## the interface -/

/-- `struct netif`, as far as `ethernet_init` fills it in for the frames it carries. -/
structure Netif where
  mtu : BitVec 16
  hwaddr : Fin 6 → Byte

/-- `ethernet_init`: the station address is `macSrcAddr` from its end. -/
def ethernet_init (dev : Dev) : Netif where
  mtu := 1500
  hwaddr i := dev.mac i.rev

/-! ## transmission -/

/-- `err_t`, as far as `enc28j60_translate` returns it. -/
inductive Err where
  | ERR_OK
  | ERR_BUF
  | ERR_INPROGRESS
  deriving DecidableEq

/-- Control is now at `l`. -/
def goto (l : Label) : Fw Unit := Res.modify fun w => { w with at_ := l }

def setTxBusy (b : Bool) : Fw Unit := Res.modify fun w => { w with bTxBusy := b }

/-- The copy loop of `enc28j60_translate`; its value is the final `offset`. -/
def copySegs : List Seg → BitVec 16 → Fw (BitVec 16)
  | [], offset => pure offset
  | q :: next, offset => do
      modifyDev fun d => d.store (txData + offset.toNat) q.payload
      copySegs next (offset + BitVec.ofNat 16 q.payload.length)

/-- The body of `enc28j60_translate`. -/
def translateBody (p : Pbuf) : Fw Err := do
  let busy ← Res.gets World.bTxBusy
  if busy ≠ true then
    let offset ← copySegs p.segs 0
    if offset ≠ p.tot_len then
      pure .ERR_BUF
    else
      let _ ← etherTransmit txData p.tot_len
      setTxBusy true
      pure .ERR_OK
  else
    pure .ERR_INPROGRESS

/-- `enc28j60_translate`. -/
def translate (p : Pbuf) : Fw Err := do
  goto .translate
  let err ← translateBody p
  goto .loop
  pure err

/-- Hand the frames to `netif->linkoutput`, one after the other. -/
def sendAll : List Pbuf → Fw Unit
  | [] => pure ()
  | p :: next => do
      let _ ← translate p
      sendAll next

/-- lwIP runs and sends what it has. -/
def linkOutput : Fw Unit := do
  let frames ← Res.gets World.offered
  sendAll frames

/-! ## reception -/

/-- `pbuf_take`: the bytes each segment of a chain receives. -/
def pbuf_take : List Nat → List Byte → List (List Byte)
  | [], _ => []
  | len :: next, bytes => bytes.take len :: pbuf_take next (bytes.drop len)

/-- `ethernet_do_translation_to_pbub`: the received bytes go to the chain, as
many as it holds. -/
def ethernet_do_translation_to_pbub (d : Dev) (lens : List Nat) : List Byte :=
  let len := (d.u16 rxPktLen).toNat
  (pbuf_take lens (Mem.load d.pkt rxData (if lens.sum < len then lens.sum else len))).flatten

/-- `netif_input`, which may send before it returns. -/
def netif_input (bytes : List Byte) : Fw Unit := do
  Res.modify fun w => { w with delivered := w.delivered ++ [bytes] }
  linkOutput

/-- A received frame goes to lwIP, if it has a buffer for it. -/
def deliver : Fw Unit := do
  let ethBuffer ← Res.gets World.pbufs
  match ethBuffer with
  | none => pure ()
  | some lens => do
      let d ← getDev
      netif_input (ethernet_do_translation_to_pbub d lens)

/-- PKTIF has just been acknowledged, after a reception that returned `err`. -/
def serviced (err : Bool) : Fw Unit :=
  Res.modify fun w => { w with at_ := .serviced err, served := w.served + 1 }

/-- Case 6 of the pass. -/
def servicePacket : Fw Unit := do
  let err ← etherReceive
  clear_interrupt PKTIF
  serviced err
  goto .loop
  if err = true then deliver else pure ()

/-! ## the interrupt pass -/

/-- The `switch (cnt)` of the pass. -/
def serviceBit (fuel : Nat) : Nat → Fw Unit
  | 0 => clear_interrupt RXERIF
  | 1 => clear_interrupt TXERIF
  | 2 => pure ()
  | 3 => do
      goto .txAck
      clear_interrupt TXIF
      setTxBusy false
      goto .loop
  | 4 => do
      let _ ← readPhyReg fuel phyReg.PHIR
      link_change_int_clear
  | 5 => clear_interrupt DMAIF
  | 6 => servicePacket
  | _ => pure ()

/-- One round of `for (cnt = 0; cnt < 8; cnt++)`. -/
def serviceFlag (fuel : Nat) (u8Value : Byte) (cnt : Nat) : Fw Unit :=
  if u8Value.getLsbD cnt then do
    global_int_Clear
    serviceBit fuel cnt
    global_Int_Set
  else
    pure ()

def serviceFlags (fuel : Nat) (u8Value : Byte) : List Nat → Fw Unit
  | [] => pure ()
  | cnt :: next => do
      serviceFlag fuel u8Value cnt
      serviceFlags fuel u8Value next

/-- Read EIR and start a new record of the transactions. -/
def snapshot : Fw Byte := do
  let u8Value ← readEtherReg bank0.EIR
  Res.modify fun w => { w with log := [] }
  pure u8Value

/-- The pass: one EIR snapshot, then each of its flags in turn. -/
def pass (fuel : Nat) : Fw Unit := do
  let d ← getDev
  let u8Value ← snapshot
  serviceFlags fuel u8Value (List.range 8)
  goto (.passEnd u8Value d.bnBank)
  goto .loop

/-- `enc28j60intCounter--`: a load and a store. -/
def decCounter : Fw Unit := do
  let n ← Res.gets World.enc28j60intCounter
  Res.modify fun w => { w with enc28j60intCounter := n - 1 }

/-- `if (enc28j60intCounter > 0) { ... }`. -/
def serviceInterrupts (fuel : Nat) : Fw Unit := do
  let n ← Res.gets World.enc28j60intCounter
  if 0 < n then do
    decCounter
    pass fuel
  else
    pure ()

/-- The body of the main loop.  What comes before the interrupt pass (timers,
`sys_check_timeouts`, the connection state machine) may send. -/
def loopBody (fuel : Nat) : Fw Unit := do
  linkOutput
  serviceInterrupts fuel

/-! ## what runs beside the loop -/

/-- `HAL_GPIO_EXTI_Callback` takes the latched request. -/
def handled (w : World) : World :=
  { w with exti := false, enc28j60intCounter := w.enc28j60intCounter + 1 }

/-- One step of the environment. -/
inductive Env : World → World → Prop
  /-- The chip does something by itself. -/
  | chip {w : World} {c : Chip} (h : Chip.Event w.chip c) : Env w (w.drive c)
  /-- The EXTI handler runs; fewer than 2^32 edges are outstanding. -/
  | handler {w : World} (h : w.exti = true) (hc : w.enc28j60intCounter ≠ BitVec.allOnes 32) :
      Env w (handled w)
  /-- lwIP has other frames to send, or other buffers to give. -/
  | lwip {w : World} (offered : List Pbuf) (pbufs : Option (List Nat)) :
      Env w { w with offered, pbufs }
  /-- SPI reads start or stop failing. -/
  | hal {w : World} (halOk : Bool) : Env w { w with halOk }

/-- Power-on: `dev` and the globals of `main.c` hold their initial values and the
chip's control registers their reset values.  Buffer memory, PHY, wait times,
and what lwIP will do are arbitrary. -/
structure AtReset (w : World) : Prop where
  dev : w.dev = Enc28j60.dev
  eie : w.chip.eie = 0
  eir : w.chip.eir = 0
  econ1 : w.chip.econ1 = 0
  epktcnt : w.chip.epktcnt = 0
  exti : w.exti = false
  enc28j60intCounter : w.enc28j60intCounter = 0
  bTxBusy : w.bTxBusy = false
  at_ : w.at_ = .loop
  log : w.log = []

theorem atReset_powerOn : AtReset World.powerOn := ⟨rfl, rfl, rfl, rfl, rfl, rfl, rfl, rfl, rfl, rfl⟩

/-- The configurations `main` reaches from `enc28j60_strtDr` at power-on. -/
def Reachable (fuel : Nat) (w : World) (c : Ctl World × World) : Prop :=
  Loop.Steps Env (loopBody fuel) (.run (strtDr fuel), w) c

end Enc28j60
