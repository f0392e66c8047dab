import Mathlib.Data.BitVec
import Mathlib.Logic.Relation

/-!
# Enc28j60.Chip

The ENC28J60 as its SPI port and its interrupt pin show it, after the datasheet
shipped with the firmware (`Documentation/Datasheet.pdf`).

* **register file** — 27 registers in each of four banks, selected by
  ECON1.BSEL, and five registers common to all banks at 0x1B..0x1F.  Registers
  the hardware owns (EPKTCNT, ERXWRPT, MIRD, MISTAT) have fields of their own
  and ignore writes.
* **SPI commands** — `command` decodes a command byte (opcode in bits 7:5,
  address in bits 4:0) with the bytes that follow it; `readControl` and
  `readBuffer` are the two commands that answer.
* **MII** — writing MIWRH stores MIWRH:MIWRL in the PHY register selected by
  MIREGADR, setting MICMD.MIIRD loads MIRD from it.  Either keeps MISTAT.BUSY
  set for `latency` polls.  Reading PHIR acknowledges the PHY interrupt.
* **receive ring** — `receive` stores an accepted frame at ERXWRPT between
  ERXST and ERXND; ERXRDPTL is buffered until ERXRDPTH is written.
* **events** — what the chip does on its own between two SPI commands.
-/

namespace Enc28j60

abbrev Byte := BitVec 8

/-- A frame as the receive logic sees it: the upper half of its status vector
and its bytes (header to CRC), whose number is the reported length. -/
structure RxFrame where
  flags : BitVec 16
  data : List Byte
  length_lt : data.length < 2 ^ 16

/-- Low and high byte of a 16-bit value, as the chip stores it. -/
def lo (v : BitVec 16) : Byte := v.setWidth 8

def hi (v : BitVec 16) : Byte := (v >>> 8).setWidth 8

/-- A 16-bit value from its high and low byte. -/
def word (h l : Byte) : BitVec 16 := h ++ l

/-- The bytes the receive logic writes for a frame: next-packet pointer, status
vector, data. -/
def RxFrame.record (f : RxFrame) (next : BitVec 16) : List Byte :=
  let len := BitVec.ofNat 16 f.data.length
  [lo next, hi next, lo len, hi len, lo f.flags, hi f.flags] ++ f.data

structure Chip where
  /-- The banked registers 0x00..0x1A; bank first, address second. -/
  regs : BitVec 2 → BitVec 5 → Byte
  /-- What a reset loads into them. -/
  resetRegs : BitVec 2 → BitVec 5 → Byte
  eie : Byte
  /-- EIR without PKTIF, which follows EPKTCNT. -/
  eir : Byte
  estat : Byte
  econ2 : Byte
  econ1 : Byte
  epktcnt : Byte
  erxwrpt : BitVec 16
  /-- The buffered low byte of ERXRDPT. -/
  erxrdptl : Byte
  phy : BitVec 5 → BitVec 16
  mird : BitVec 16
  /-- Polls for which MISTAT.BUSY still reads 1. -/
  busy : Nat
  /-- Polls for which ESTAT.CLKRDY still reads 0. -/
  clk : Nat
  /-- Polls an MII operation takes. -/
  latency : Nat
  mem : Nat → Byte
  /-- What a MAC or MII register shows before its value is ready. -/
  dummy : Byte
  /-- Every frame accepted since the last reset, oldest first, with the address it was stored at. -/
  accepted : List (Nat × RxFrame)

namespace Chip

/-! ## register file -/

/-- ECON1.BSEL. -/
def bsel (c : Chip) : BitVec 2 := c.econ1.setWidth 2

/-- ECON1.TXRTS. -/
def txrts (c : Chip) : Bool := c.econ1.getLsbD 3

/-- EIR.TXIF. -/
def txif (c : Chip) : Bool := c.eir.getLsbD 3

/-- ECON2.AUTOINC. -/
def autoinc (c : Chip) : Bool := c.econ2.getLsbD 7

/-- EIR as the host reads it: PKTIF (bit 6) holds exactly when EPKTCNT > 0. -/
def eirValue (c : Chip) : Byte := (c.eir &&& 0x3F) ||| (if c.epktcnt = 0 then 0 else 0x40)

/-- The INT line is asserted: EIE.INTIE is set and some enabled flag is up. -/
def asserted (c : Chip) : Bool := c.eie.getLsbD 7 && (c.eirValue &&& c.eie &&& 0x7F) != 0

def setReg (c : Chip) (b : BitVec 2) (a : BitVec 5) (v : Byte) : Chip :=
  { c with regs := fun b' a' => if b' = b ∧ a' = a then v else c.regs b' a' }

/-- A pointer register pair, low byte at `a`, in bank 0. -/
def ptr (c : Chip) (a : BitVec 5) : BitVec 16 := word (c.regs 0 (a + 1)) (c.regs 0 a)

def setPtr (c : Chip) (a : BitVec 5) (v : BitVec 16) : Chip :=
  (c.setReg 0 a (lo v)).setReg 0 (a + 1) (hi v)

/- The pointer pairs of bank 0. -/
abbrev ERDPT : BitVec 5 := 0x00
abbrev EWRPT : BitVec 5 := 0x02
abbrev ETXST : BitVec 5 := 0x04
abbrev ETXND : BitVec 5 := 0x06
abbrev ERXST : BitVec 5 := 0x08
abbrev ERXND : BitVec 5 := 0x0A
abbrev ERXRDPT : BitVec 5 := 0x0C

/-- MAC and MII registers answer a read after one dummy byte. -/
def isMacMii (b : BitVec 2) (a : BitVec 5) : Bool :=
  b == 2 || (b == 3 && (a.ult 0x06 || a == 0x0A))

/-- The value of the register at address `a` of the selected bank. -/
def readReg (c : Chip) (a : BitVec 5) : Byte :=
  if a = 0x1B then c.eie
  else if a = 0x1C then c.eirValue
  else if a = 0x1D then (c.estat &&& 0xFE) ||| (if c.clk = 0 then 1 else 0)
  else if a = 0x1E then c.econ2
  else if a = 0x1F then c.econ1
  else if c.bsel = 0 ∧ a = 0x0E then lo c.erxwrpt
  else if c.bsel = 0 ∧ a = 0x0F then hi c.erxwrpt
  else if c.bsel = 1 ∧ a = 0x19 then c.epktcnt
  else if c.bsel = 2 ∧ a = 0x18 then lo c.mird
  else if c.bsel = 2 ∧ a = 0x19 then hi c.mird
  else if c.bsel = 3 ∧ a = 0x0A then (if c.busy = 0 then 0 else 1)
  else c.regs c.bsel a

/-! ## MII -/

/-- The PHY register selected by MIREGADR. -/
def miregadr (c : Chip) : BitVec 5 := (c.regs 2 0x14).setWidth 5

/-- MIWRH was written: MIWRH:MIWRL goes to the selected PHY register. -/
def miiWrite (c : Chip) (h : Byte) : Chip :=
  let r := c.miregadr
  let v := word h (c.regs 2 0x16)
  { c with phy := fun a => if a = r then v else c.phy a, busy := c.latency }

/-- PHY register PHIR. -/
def PHIR : BitVec 5 := 0x13

/-- MICMD.MIIRD was set: the selected PHY register is loaded into MIRD.
Reading PHIR clears the pending PHY interrupt flags and EIR.LINKIF. -/
def miiRead (c : Chip) : Chip :=
  let c' := { c with mird := c.phy c.miregadr, busy := c.latency }
  if c.miregadr = PHIR then
    { c' with phy := fun a => if a = PHIR then c.phy a &&& 0xFFEB else c.phy a
              eir := c.eir &&& 0xEF }
  else c'

/-! ## writes -/

/-- Decrement EPKTCNT; attempts to go below 0 are ignored. -/
def pktDec (c : Chip) : Chip :=
  { c with epktcnt := if c.epktcnt = 0 then 0 else c.epktcnt - 1 }

/-- A write to one of the banked registers. -/
def writeBanked (c : Chip) (b : BitVec 2) (a : BitVec 5) (v : Byte) : Chip :=
  if b = 0 ∧ a = 0x0C then { c with erxrdptl := v }
  else if b = 0 ∧ a = 0x0D then (c.setReg 0 0x0C c.erxrdptl).setReg 0 0x0D v
  else if b = 0 ∧ (a = 0x08 ∨ a = 0x09) then
    let c' := c.setReg b a v
    { c' with erxwrpt := c'.ptr ERXST }
  else if b = 0 ∧ (a = 0x0E ∨ a = 0x0F) then c
  else if b = 1 ∧ a = 0x19 then c
  else if b = 2 ∧ (a = 0x18 ∨ a = 0x19) then c
  else if b = 3 ∧ a = 0x0A then c
  else if b = 2 ∧ a = 0x12 then
    if v.getLsbD 0 then (c.setReg b a v).miiRead else c.setReg b a v
  else if b = 2 ∧ a = 0x17 then (c.setReg b a v).miiWrite v
  else c.setReg b a v

/-- A write to the register at address `a` of the selected bank.  LINKIF and
PKTIF are read-only; ECON2.PKTDEC decrements EPKTCNT and clears itself. -/
def writeReg (c : Chip) (a : BitVec 5) (v : Byte) : Chip :=
  if a = 0x1B then { c with eie := v }
  else if a = 0x1C then { c with eir := (v &&& 0x2F) ||| (c.eir &&& 0x10) }
  else if a = 0x1D then { c with estat := v }
  else if a = 0x1E then
    let c' := { c with econ2 := v &&& 0xBF }
    if v.getLsbD 6 then c'.pktDec else c'
  else if a = 0x1F then { c with econ1 := v }
  else c.writeBanked c.bsel a v

/-- What the bit field commands combine their mask with. -/
def fieldValue (c : Chip) (a : BitVec 5) : Byte := if a = 0x1C then c.eir else c.readReg a

def bitFieldSet (c : Chip) (a : BitVec 5) (v : Byte) : Chip :=
  c.writeReg a (c.fieldValue a ||| v)

def bitFieldClear (c : Chip) (a : BitVec 5) (v : Byte) : Chip :=
  c.writeReg a (c.fieldValue a &&& ~~~v)

/-- The system soft reset: registers reload, the receive ring is empty, bank 0
is selected.  The PHY, the buffer memory and the oscillator are untouched. -/
def softReset (c : Chip) : Chip :=
  { c with
    regs := c.resetRegs, eie := 0, eir := 0, estat := 0, econ2 := 0x80, econ1 := 0
    epktcnt := 0, erxwrpt := word (c.resetRegs 0 0x09) (c.resetRegs 0 0x08)
    erxrdptl := c.resetRegs 0 0x0C, accepted := [] }

/-- The chip after a power-on reset, with the register and PHY values the
datasheet gives. -/
def powerOn : Chip :=
  let regs : BitVec 2 → BitVec 5 → Byte := fun b a =>
    if b = 0 then [0xFA, 0x05, 0, 0, 0, 0, 0, 0, 0xFA, 0x05, 0xFF, 0x1F, 0xFA, 0x05].getD a.toNat 0
    else if b = 1 ∧ a = 0x18 then 0xA1
    else if b = 2 ∧ a = 0x0A then 0x00
    else if b = 2 ∧ a = 0x0B then 0x06
    else 0
  { regs, resetRegs := regs, eie := 0, eir := 0, estat := 0, econ2 := 0x80, econ1 := 0
    epktcnt := 0, erxwrpt := 0x05FA, erxrdptl := 0xFA
    phy := fun a => if a = 0x01 then 0x1800 else if a = 0x02 then 0x0083
      else if a = 0x03 then 0x1400 else 0
    mird := 0, busy := 0, clk := 0, latency := 0, mem := fun _ => 0, dummy := 0, accepted := [] }

/-! ## buffer memory -/

/-- The address after ERDPT: reads wrap from ERXND to ERXST. -/
def nextRead (c : Chip) : BitVec 16 :=
  if c.ptr ERDPT = c.ptr ERXND then c.ptr ERXST else (c.ptr ERDPT + 1) &&& 0x1FFF

/-- Read `n` bytes of buffer memory at ERDPT. -/
def readBuffer : Nat → Chip → List Byte × Chip
  | 0, c => ([], c)
  | n + 1, c =>
      let v := c.mem (c.ptr ERDPT).toNat
      let c' := if c.autoinc then c.setPtr ERDPT c.nextRead else c
      let r := readBuffer n c'
      (v :: r.1, r.2)

/-- Write bytes to buffer memory at EWRPT; writes do not wrap at ERXND. -/
def writeBuffer : List Byte → Chip → Chip
  | [], c => c
  | v :: vs, c =>
      let p := c.ptr EWRPT
      let c' := { c with mem := fun i => if i = p.toNat then v else c.mem i }
      writeBuffer vs (if c.autoinc then c'.setPtr EWRPT ((p + 1) &&& 0x1FFF) else c')

/-! ## SPI commands -/

/-- Opcode field of a command byte. -/
def opcodeOf (cmd : Byte) : BitVec 3 := (cmd >>> 5).setWidth 3

/-- Argument field of a command byte. -/
def addrOf (cmd : Byte) : BitVec 5 := cmd.setWidth 5

/-- A command that answers nothing, with the bytes sent after the command byte. -/
def command (c : Chip) (cmd : Byte) (out : List Byte) : Chip :=
  match opcodeOf cmd, out with
  | 0b010, v :: _ => c.writeReg (addrOf cmd) v
  | 0b011, vs => if addrOf cmd = 0x1A then writeBuffer vs c else c
  | 0b100, v :: _ => c.bitFieldSet (addrOf cmd) v
  | 0b101, v :: _ => c.bitFieldClear (addrOf cmd) v
  | 0b111, _ => if addrOf cmd = 0x1F then c.softReset else c
  | _, _ => c

/-- Polling a status register is what lets its wait time pass. -/
def poll (c : Chip) (a : BitVec 5) : Chip :=
  if a = 0x1D then { c with clk := c.clk - 1 }
  else if c.bsel = 3 ∧ a = 0x0A then { c with busy := c.busy - 1 }
  else c

/-- Read control register, clocking `n` bytes: the last byte and the chip after.
A MAC or MII register shows its value from the second byte on. -/
def readControl (c : Chip) (cmd : Byte) (n : Nat) : Byte × Chip :=
  let a := addrOf cmd
  let v := if isMacMii c.bsel a && a.ult 0x1B && n.ble 1 then c.dummy else c.readReg a
  (v, c.poll a)

/-! ## events -/

/-- Address `k` places after `p` in the receive ring. -/
def ringAddr (c : Chip) (p k : Nat) : Nat :=
  let st := (c.ptr ERXST).toNat
  st + (p - st + k) % ((c.ptr ERXND).toNat + 1 - st)

/-- Bytes a frame takes in the ring: header, data and padding to an even start. -/
def footprint (f : RxFrame) : Nat := (6 + f.data.length + 1) / 2 * 2

/-- Free space of the ring, as the datasheet computes it from ERXWRPT and
ERXRDPT. -/
def freeSpace (c : Chip) : Nat :=
  let w := c.erxwrpt.toNat
  let r := (c.ptr ERXRDPT).toNat
  let size := (c.ptr ERXND).toNat - (c.ptr ERXST).toNat
  if w > r then size - (w - r) else if w = r then size else r - w - 1

/-- Where the frame after `f` will start. -/
def nextStart (c : Chip) (f : RxFrame) : Nat := c.ringAddr c.erxwrpt.toNat (footprint f)

/-- Store an accepted frame. -/
def receive (c : Chip) (f : RxFrame) : Chip :=
  let w := c.erxwrpt.toNat
  let next := BitVec.ofNat 16 (c.nextStart f)
  let bytes := f.record next
  { c with
    mem := fun i => match (List.range bytes.length).find? fun k => c.ringAddr w k == i with
      | some k => bytes.getD k 0
      | none => c.mem i
    erxwrpt := next
    epktcnt := c.epktcnt + 1
    accepted := c.accepted ++ [(w, f)] }

/-- The chip accepts a frame that fits below ERXRDPT, while reception is
enabled and EPKTCNT can count it. -/
def accepts (c : Chip) (f : RxFrame) : Prop :=
  c.econ1.getLsbD 2 = true ∧ c.epktcnt ≠ 255 ∧ footprint f ≤ c.freeSpace

/-- What the chip does by itself. -/
inductive Event : Chip → Chip → Prop
  | receive {c : Chip} (f : RxFrame) (h : c.accepts f) : Event c (c.receive f)
  /-- A requested transmission ends or is aborted, possibly with an error. -/
  | txEnd {c : Chip} (err : Bool) (h : c.txrts = true) :
      Event c { c with econ1 := c.econ1 &&& 0xF7
                       eir := c.eir ||| (if err then 0x0A else 0x08) }
  /-- RXERIF, TXERIF, WOLIF or DMAIF goes up. -/
  | raise {c : Chip} (flag : Byte) (h : flag ∈ [0x01, 0x02, 0x04, 0x20]) :
      Event c { c with eir := c.eir ||| flag }
  /-- The link changes: PHIR and EIR.LINKIF go up. -/
  | linkChange {c : Chip} :
      Event c { c with eir := c.eir ||| 0x10
                       phy := fun a => if a = PHIR then c.phy a ||| 0x14 else c.phy a }
  /-- A PHY status register changes. -/
  | phyStatus {c : Chip} (a : BitVec 5) (v : BitVec 16) (h : a ∈ [0x01, 0x11]) :
      Event c { c with phy := fun a' => if a' = a then v else c.phy a' }

end Chip

end Enc28j60
