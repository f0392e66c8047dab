import Enc28j60.World

/-!
# Enc28j60.Driver

The functions of `enc28j60_hwd.c`, in the order a reader meets them: bank
switching, the register accesses, the PHY, initialisation, transmission,
reception and the interrupt helpers.

A loop that polls the chip takes the number of polls it may make (`fuel`) and is
`stuck` if the chip has not answered by then.  Log messages are left out.
-/

namespace Enc28j60

/-! ## banks -/

/-- `enc28j60_bankChange`. -/
def bankChange (bBank : Bank) : Fw Unit := do
  let dev ← getDev
  if dev.bnBank = .undefBank then
    pure ()
  else
    spiSend none (opcode.u8BitFieldClear ||| (0x1F &&& dev.bnBank.econ1)) [0x03]
    let u8BitsToSets := convertBankToBits bBank
    -- zero needs no bits; this branch is also the only one that updates the cache
    if u8BitsToSets ≠ 0 ∧ u8BitsToSets ≤ 3 then
      spiSend none (opcode.u8BitFieldSet ||| (0x1F &&& bank0.ECON1)) [u8BitsToSets]
      modifyDev fun d => { d with bnBank := bBank }
    else
      pure ()

/-- The first two lines of every register access. -/
def selectBank (u8Reg : Byte) : Fw Unit := do
  let bBank := convertRegValToBank u8Reg
  let dev ← getDev
  if bBank ≠ dev.bnBank then bankChange bBank else pure ()

/-! ## register access -/

/-- A register command of the given opcode, with one data byte. -/
def sendReg (opcode u8Reg u8data : Byte) : Fw Unit := do
  selectBank u8Reg
  spiSend (some u8Reg) (opcode ||| (0x1F &&& u8Reg)) [u8data]

/-- A register read of `n` bytes, the last of which counts. -/
def receiveReg (n : Nat) (u8Reg : Byte) : Fw Byte := do
  selectBank u8Reg
  spiReadControl u8Reg (opcode.u8readControlRegister ||| (0x1F &&& u8Reg)) n

/-- `enc28j60_writeReg`. -/
def writeReg (u8Reg u8Value : Byte) : Fw Unit :=
  sendReg opcode.u8writeControlRegister u8Reg u8Value

/-- `enc28j60_BitFieldSet`. -/
def BitFieldSet (u8Reg u8data : Byte) : Fw Unit := sendReg opcode.u8BitFieldSet u8Reg u8data

/-- `enc28j60_BitFieldClear`. -/
def BitFieldClear (u8Reg u8data : Byte) : Fw Unit := sendReg opcode.u8BitFieldClear u8Reg u8data

/-- `enc28j60_readEtherReg`. -/
def readEtherReg (u8Reg : Byte) : Fw Byte := receiveReg 1 u8Reg

/-- `enc28j60_readMacMIIReg`: one dummy byte, then the value. -/
def readMacMIIReg (u8Reg : Byte) : Fw Byte := receiveReg 2 u8Reg

/-- A 16-bit value written low byte first, to two registers. -/
def writeReg16 (regL regH : Byte) (v : BitVec 16) : Fw Unit := do
  writeReg regL (lo v)
  writeReg regH (hi v)

/-! ## PHY -/

/-- `while (enc28j60_readMacMIIReg(dev, MISTAT) & 0x01) continue;` -/
def waitMii (fuel : Nat) : Fw Unit :=
  Res.pollWhile (do
    let v ← readMacMIIReg bank3.MISTAT
    pure (v.getLsbD 0)) fuel

/-- `enc28j60_readPhyReg` once the read is started: wait, stop it, fetch MIRD. -/
def phyResult (fuel : Nat) : Fw (BitVec 16) := do
  delayMs 1
  waitMii fuel
  let u8ReturnValueFrClr ← readMacMIIReg bank2.MICMD
  writeReg bank2.MICMD (u8ReturnValueFrClr &&& ~~~0x01)
  let h ← readMacMIIReg bank2.MIRDH
  let l ← readMacMIIReg bank2.MIRDL
  pure (word h l)

/-- `enc28j60_readPhyReg`. -/
def readPhyReg (fuel : Nat) (addr : Byte) : Fw (BitVec 16) := do
  writeReg bank2.MIREGADR addr
  let u8ReturnValuefrSet ← readMacMIIReg bank2.MICMD
  writeReg bank2.MICMD (u8ReturnValuefrSet ||| 0x01)
  phyResult fuel

/-- `enc28j60_writePhyReg`. -/
def writePhyReg (fuel : Nat) (addr : Byte) (data : BitVec 16) : Fw Unit := do
  writeReg bank2.MIREGADR addr
  writeReg16 bank2.MIWRL bank2.MIWRH data
  delayMs 1
  waitMii fuel

/-- `enc28j60_getPhyRevNumber`. -/
def getPhyRevNumber (fuel : Nat) : Fw Byte := do
  let v ← readPhyReg fuel phyReg.PHID2
  pure (lo v &&& 0x0F)

/-- `enc28j60_getPhyPartNumber`. -/
def getPhyPartNumber (fuel : Nat) : Fw (BitVec 16) := do
  let v ← readPhyReg fuel phyReg.PHID2
  pure ((v &&& 0x03F0) >>> 4)

/-- `enc28j60_getPhyIdentifier`; the local that collects it has 16 bits. -/
def getPhyIdentifier (fuel : Nat) : Fw (BitVec 32) := do
  let v ← readPhyReg fuel phyReg.PHID1
  let v' ← readPhyReg fuel phyReg.PHID2
  pure (((v >>> 3) ||| (v' <<< 9)).setWidth 32)

/-- One bit of a PHY status register. -/
def phyStatusBit (fuel : Nat) (addr : Byte) (bit : Nat) : Fw Bool := do
  let v ← readPhyReg fuel addr
  pure (v.getLsbD bit)

def getPhylinkHasBeenDown (fuel : Nat) : Fw Bool := phyStatusBit fuel phyReg.PHSTAT1 2
def getPhyjabberStatusBit (fuel : Nat) : Fw Bool := phyStatusBit fuel phyReg.PHSTAT1 1
def getPhyPolarityStatus (fuel : Nat) : Fw Bool := phyStatusBit fuel phyReg.PHSTAT2 4
def getPhyDuplexStatus (fuel : Nat) : Fw Bool := phyStatusBit fuel phyReg.PHSTAT2 9
def getPhyLinkStatus (fuel : Nat) : Fw Bool := phyStatusBit fuel phyReg.PHSTAT2 10
def getPhyCollisionStatus (fuel : Nat) : Fw Bool := phyStatusBit fuel phyReg.PHSTAT2 11
def getPhyIsRxStatus (fuel : Nat) : Fw Bool := phyStatusBit fuel phyReg.PHSTAT2 12
def getPhyIsTxStatus (fuel : Nat) : Fw Bool := phyStatusBit fuel phyReg.PHSTAT2 13

/-- `enc28j60_getPhyInterrupt`. -/
def getPhyInterrupt (fuel : Nat) : Fw (BitVec 16) := readPhyReg fuel phyReg.PHIR

/-! ## initialisation -/

/-- `enc28j60_sftRst`, which only calls `enc28j60_SoftReset`. -/
def sftRst : Fw Unit := spiSend none opcode.u8SoftReset []

/-- `enc2860_phyInit`. -/
def phyInit (fuel : Nat) : Fw Unit := do
  let v ← readPhyReg fuel phyReg.PHCON1
  writePhyReg fuel phyReg.PHCON1 (v ||| (1 <<< 8))
  let v ← readPhyReg fuel phyReg.PHIE
  writePhyReg fuel phyReg.PHIE (v ||| ((1 <<< 1) ||| (1 <<< 4)))

/-- `enc2860_macInit`. -/
def macInit : Fw Unit := do
  let v ← readMacMIIReg bank2.MACLCON2
  writeReg bank2.MACLCON2 (v &&& ~~~((1 : Byte) <<< 7))
  let v ← readMacMIIReg bank2.MACON1
  writeReg bank2.MACON1 (v ||| ((1 <<< 3) ||| (1 <<< 2) ||| 0x01))
  let v ← readMacMIIReg bank2.MACON3
  writeReg bank2.MACON3 (v ||| ((7 <<< 5) ||| (1 <<< 4) ||| (1 <<< 2) ||| 0x01))
  let dev ← getDev
  writeReg16 bank2.MAMXFLL bank2.MAMXFLH dev.MxmPkSize
  writeReg bank2.MABBIPG 0x15
  writeReg bank2.MAIPGL 0x12
  writeReg bank3.MAADR0 (dev.mac 0)
  writeReg bank3.MAADR1 (dev.mac 1)
  writeReg bank3.MAADR2 (dev.mac 2)
  writeReg bank3.MAADR3 (dev.mac 3)
  writeReg bank3.MAADR4 (dev.mac 4)
  writeReg bank3.MAADR5 (dev.mac 5)

/-- `enc28j60_rxSetFilters`. -/
def rxSetFilters (filter : Byte) : Fw Unit := writeReg bank1.ERXFCON filter

/-- `while (!(enc28j60_readEtherReg(dev, ESTAT) & 0x01)) continue;` -/
def waitClock (fuel : Nat) : Fw Unit :=
  Res.pollWhile (do
    let v ← readEtherReg bank0.ESTAT
    pure (!v.getLsbD 0)) fuel

/-- The buffer pointers `enc28j60_strtDr` programs. -/
def bufferInit : Fw Unit := do
  let dev ← getDev
  writeReg16 bank0.ERXSTL bank0.ERXSTH dev.rxBufStartAddr
  writeReg16 bank0.ERDPTL bank0.ERDPTH (dev.u16 ptrAddr)
  writeReg16 bank0.ERXNDL bank0.ERXNDH dev.rxBufEndAddr
  writeReg16 bank0.ERXRDPTL bank0.ERXRDPTH dev.rxBufEndAddr
  writeReg16 bank0.ETXSTL bank0.ETXSTH dev.txBufStartAddr
  writeReg16 bank0.ETXNDL bank0.ETXNDH dev.txBufEndAddr

/-- `enc28j60_strtDr`. -/
def strtDr (fuel : Nat) : Fw Unit := do
  sftRst
  delayMs 1
  waitClock fuel
  let _ ← getPhyRevNumber fuel
  let _ ← getPhyPartNumber fuel
  let _ ← getPhyIdentifier fuel
  bufferInit
  phyInit fuel
  macInit
  rxSetFilters (RX_UNICAST ||| RX_CRC_CHECK ||| RX_BROADCAST)
  writeReg bank0.EIE 0xFF
  BitFieldSet bank0.ECON2 (1 <<< 7)
  BitFieldSet bank0.ECON1 (1 <<< 2)

/-! ## transmission -/

/-- `enc28j60_etherTransmit` up to the ETXND pointer: the frame goes to the
chip's transmit memory.  `u8PtrData` is where its bytes are in the image. -/
def loadFrame (u8PtrData : Nat) (length : BitVec 16) : Fw Unit := do
  let dev ← getDev
  writeReg16 bank0.EWRPTL bank0.EWRPTH dev.txBufStartAddr
  writeReg16 bank0.ETXSTL bank0.ETXSTH dev.txBufStartAddr
  modifyDev fun d => d.setU16 txPktLen (d.txBufStartAddr + length)
  let dev ← getDev
  -- one transaction: per-packet control byte, then the frame
  spiSend none opcode.u8WriteBufferMemory (0x00 :: Mem.load dev.pkt u8PtrData length.toNat)
  writeReg16 bank0.ETXNDL bank0.ETXNDH (dev.u16 txPktLen)

/-- `enc28j60_etherTransmit`.  It always returns true. -/
def etherTransmit (u8PtrData : Nat) (length : BitVec 16) : Fw Bool := do
  loadFrame u8PtrData length
  BitFieldClear bank0.EIR (1 <<< 3)
  BitFieldSet bank0.EIE (1 <<< 3)
  BitFieldSet bank0.EIE (1 <<< 7)
  BitFieldSet bank0.ECON1 (1 <<< 3)
  pure true

/-! ## reception -/

/-- The read-lock pointer for the next-packet pointer `p`, after the errata. -/
def lockPointer (d : Dev) (p : BitVec 16) : BitVec 16 :=
  if p = d.rxBufStartAddr then d.rxBufEndAddr else p - 1

/-- The length check of `enc28j60_etherReceive`; its value is `bReturnValue`. -/
def checkPktLen : Fw Bool := do
  let dev ← getDev
  if 1518 ≤ (dev.u16 rxPktLen).toNat then
    modifyDev fun d => d.setU16 rxPktLen 0
    pure false
  else
    pure true

/-- `enc28j60_etherReceive`. -/
def etherReceive : Fw Bool := do
  let dev ← getDev
  writeReg16 bank0.ERDPTL bank0.ERDPTH (dev.u16 ptrAddr)
  spiOpen opcode.u8readBufferMemory
  let _ ← spiRead nxtPktAddr 2
  modifyDev fun d => d.setU16 ptrAddr (d.u16 nxtPktAddr)
  let _ ← spiRead rxStatVect 4
  modifyDev fun d => d.setU16 rxPktLen (d.u16 rxStatVect)
  let bReturnValue ← checkPktLen
  let dev ← getDev
  let _ ← spiRead rxData (dev.u16 rxPktLen).toNat
  spiClose
  let dev ← getDev
  writeReg16 bank0.ERXRDPTL bank0.ERXRDPTH (lockPointer dev (dev.u16 ptrAddr))
  pure bReturnValue

/-! ## interrupts -/

/-- `enc28j60_getEtherInterrupt`: EIR under the number it has in the cached bank. -/
def getEtherInterrupt : Fw Byte := do
  let dev ← getDev
  if dev.bnBank = .undefBank then pure 0 else readEtherReg (commonRegs.EIR dev.bnBank.toByte)

/-- `enc28j60_getwakeUpInterrupt`. -/
def getwakeUpInterrupt : Fw Byte := readEtherReg bank1.EWOLIR

/-- `enc28j60_clear_interrupt`. -/
def clear_interrupt (flags : Byte) : Fw Unit :=
  if flags.toNat ≤ 64 then
    if flags = PKTIF then BitFieldSet bank0.ECON2 (1 <<< 6) else BitFieldClear bank0.EIR flags
  else pure ()

/-- `enc28j60_global_Int_Set`. -/
def global_Int_Set : Fw Unit := BitFieldSet bank0.EIE (1 <<< 7)

/-- `enc28j60_global_int_Clear`. -/
def global_int_Clear : Fw Unit := BitFieldClear bank0.EIE (1 <<< 7)

/-- `enc28j60_link_change_int_clear`. -/
def link_change_int_clear : Fw Unit := BitFieldClear bank0.EIE (1 <<< 4)

end Enc28j60
