import Enc28j60.Lib.Resumption
import Enc28j60.Lib.Mem
import Enc28j60.Regs

/-!
# Enc28j60.World

The state the firmware's Ethernet side runs on: the driver record `dev`, the
chip, the EXTI latch of its INT pin, the globals of `main.c` that the interrupt
pass uses, and what lwIP will answer.

`rxPkt` and `txPkt` are packed structs that follow each other in `dev`, so they
are one byte image here (`Dev.pkt`) with the offsets the header declares; a read
that runs past `rxPkt.data` lands where it lands in the firmware.
-/

namespace Enc28j60

/-! ## the driver record -/

/- Offsets in the image of `rxPkt` and `txPkt`. -/
def nxtPktAddr : Nat := 0
def rxStatVect : Nat := 2
def rxPktLen : Nat := 6
def rxData : Nat := 8
def ptrAddr : Nat := 1508
def txPktLen : Nat := 1510
def txData : Nat := 1512

/-- The indices of a MAC address are numerals. -/
instance neZero_mac : NeZero (6 : Nat) := ⟨by decide⟩

/-- `enc28j60Drv`, without the function pointers and the register numbers. -/
structure Dev where
  bnBank : Bank
  rxBufStartAddr : BitVec 16
  rxBufEndAddr : BitVec 16
  txBufStartAddr : BitVec 16
  txBufEndAddr : BitVec 16
  MxmPkSize : BitVec 16
  mac : Fin 6 → Byte
  /-- The bytes of `rxPkt` and, right after them, of `txPkt`. -/
  pkt : Nat → Byte

namespace Dev

/-- A 16-bit field of the image, little endian. -/
def u16 (d : Dev) (off : Nat) : BitVec 16 := word (d.pkt (off + 1)) (d.pkt off)

/-- Store bytes in the image. -/
def store (d : Dev) (off : Nat) (bs : List Byte) : Dev := { d with pkt := Mem.store d.pkt off bs }

/-- Store a 16-bit field. -/
def setU16 (d : Dev) (off : Nat) (v : BitVec 16) : Dev := d.store off [lo v, hi v]

end Dev

/-- `dev` as the source initialises it. -/
def dev : Dev where
  bnBank := .bank_0
  rxBufStartAddr := 0x0000
  rxBufEndAddr := 0x17FF
  txBufStartAddr := 0x1800
  txBufEndAddr := 0x1FFF
  MxmPkSize := 1500
  mac := fun i => [0xED, 0x6A, 0xAF, 0x16, 0x7C, 0x04].getD i.val 0
  pkt := fun _ => 0

/-! ## packet buffers -/

/-- One segment of a pbuf chain; `len` is a 16-bit field. -/
structure Seg where
  payload : List Byte
  length_lt : payload.length < 2 ^ 16

/-- `struct pbuf` with its chain. -/
structure Pbuf where
  segs : List Seg
  tot_len : BitVec 16

/-! ## the world -/

/-- The control points of `main.c` that properties refer to. -/
inductive Label where
  /-- Anywhere else. -/
  | loop
  /-- Inside `enc28j60_translate`. -/
  | translate
  /-- Case 3 of the pass: from the acknowledgement of TXIF to `bTxBusy = false`. -/
  | txAck
  /-- Right after `enc28j60_clear_interrupt(&dev, PKTIF)`; `err` is what
  `enc28j60_etherReceive` returned. -/
  | serviced (err : Bool)
  /-- An interrupt pass with snapshot `u8Value`, entered with cached bank `bank`, has ended. -/
  | passEnd (u8Value : Byte) (bank : Bank)
  deriving DecidableEq

/-- One SPI transaction: the register it names (if a register function issued
it), the command byte, the bytes sent and received, and the chip on either side. -/
structure Entry where
  reg : Option Byte
  cmd : Byte
  out : List Byte
  inp : List Byte
  at_ : Label
  pre : Chip
  post : Chip

structure World where
  dev : Dev
  chip : Chip
  /-- The EXTI request latched by a falling edge of INT. -/
  exti : Bool
  /-- Whether `HAL_SPI_Receive` succeeds. -/
  halOk : Bool
  /-- The command byte of the transaction that holds chip select low, for buffer reads. -/
  sel : Byte
  /-- Every SPI transaction since the last EIR snapshot, newest first. -/
  log : List Entry
  enc28j60intCounter : BitVec 32
  bTxBusy : Bool
  at_ : Label
  /-- The frames lwIP hands to `netif->linkoutput` next. -/
  offered : List Pbuf
  /-- What `pbuf_alloc` answers next: nothing, or a chain with these segment sizes. -/
  pbufs : Option (List Nat)
  /-- The frames passed to `netif_input`, oldest first. -/
  delivered : List (List Byte)
  /-- How often case 6 of the pass has acknowledged PKTIF. -/
  served : Nat

namespace World

/-- The chip changes; INT going from released to asserted is a falling edge. -/
def drive (w : World) (c : Chip) : World :=
  { w with chip := c, exti := w.exti || (!w.chip.asserted && c.asserted) }

/-- The chip changes through an SPI transaction. -/
def transact (w : World) (reg : Option Byte) (cmd : Byte) (out inp : List Byte) (c : Chip) :
    World :=
  { w.drive c with log := ⟨reg, cmd, out, inp, w.at_, w.chip, c⟩ :: w.log }

/-- Everything at power-on. -/
def powerOn : World where
  dev := Enc28j60.dev
  chip := Chip.powerOn
  exti := false
  halOk := true
  sel := 0
  log := []
  enc28j60intCounter := 0
  bTxBusy := false
  at_ := .loop
  offered := []
  pbufs := none
  delivered := []
  served := 0

end World

/-! ## the SPI port -/

/-- A thread of the firmware. -/
abbrev Fw := Res World

/-- Read the driver record. -/
def getDev : Fw Dev := Res.gets World.dev

/-- Change the driver record. -/
def modifyDev (f : Dev → Dev) : Fw Unit := Res.modify fun w => { w with dev := f w.dev }

/-- Chip select, command byte, data bytes, chip deselect. -/
def spiSend (reg : Option Byte) (cmd : Byte) (out : List Byte) : Fw Unit :=
  Res.modify fun w => w.transact reg cmd out [] (w.chip.command cmd out)

/-- Chip select, command byte, `n` one-byte reads into the same variable, chip deselect. -/
def spiReadControl (reg : Byte) (cmd : Byte) (n : Nat) : Fw Byte :=
  Res.act fun w =>
    let r := w.chip.readControl cmd n
    (r.1, w.transact (some reg) cmd [] [r.1] r.2)

/-- Chip select and command byte of a transaction that stays open. -/
def spiOpen (cmd : Byte) : Fw Unit := Res.modify fun w => { w with sel := cmd }

/-- `fncPtrRead` into the image at `off` while the transaction is open: the
bytes arrive, or the transfer fails and the destination keeps its value. -/
def spiRead (off n : Nat) : Fw Bool :=
  Res.act fun w =>
    if w.halOk ∧ w.sel = opcode.u8readBufferMemory then
      let r := w.chip.readBuffer n
      (true, { w.transact none w.sel [] r.1 r.2 with dev := w.dev.store off r.1 })
    else (false, w)

/-- Chip deselect. -/
def spiClose : Fw Unit := Res.modify fun w => { w with sel := 0 }

/-- `fncPtrDelayFunc`. -/
def delayMs (_ : Nat) : Fw Unit := Res.modify id

end Enc28j60
