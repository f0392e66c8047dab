import Enc28j60.Chip

/-!
# Enc28j60.Regs

The constants of `enc28j60_hwd.c`: register numbers, opcodes, PHY registers and
interrupt flags.  A register number carries its bank in bits 7:6 and its address
in bits 4:0; the five common registers appear in every bank.
-/

namespace Enc28j60

def BANK_0 : Byte := 0
def BANK_1 : Byte := 0x01 <<< 6
def BANK_2 : Byte := 0x01 <<< 7
def BANK_3 : Byte := 0x03 <<< 6

/-- `encj28j60_bank`. -/
inductive Bank where
  | bank_0
  | bank_1
  | bank_2
  | bank_3
  | undefBank
  deriving DecidableEq, Repr

/-- The value of the enumerator. -/
def Bank.toByte : Bank → Byte
  | bank_0 => BANK_0
  | bank_1 => BANK_1
  | bank_2 => BANK_2
  | bank_3 => BANK_3
  | undefBank => BANK_3 + 1

namespace commonRegs

def EIE (bank : Byte) : Byte := bank ||| 0x1B
def EIR (bank : Byte) : Byte := bank ||| 0x1C
def ESTAT (bank : Byte) : Byte := bank ||| 0x1D
def ECON2 (bank : Byte) : Byte := bank ||| 0x1E
def ECON1 (bank : Byte) : Byte := bank ||| 0x1F

end commonRegs

namespace bank0

def ERDPTL : Byte := BANK_0 ||| 0x00
def ERDPTH : Byte := BANK_0 ||| 0x01
def EWRPTL : Byte := BANK_0 ||| 0x02
def EWRPTH : Byte := BANK_0 ||| 0x03
def ETXSTL : Byte := BANK_0 ||| 0x04
def ETXSTH : Byte := BANK_0 ||| 0x05
def ETXNDL : Byte := BANK_0 ||| 0x06
def ETXNDH : Byte := BANK_0 ||| 0x07
def ERXSTL : Byte := BANK_0 ||| 0x08
def ERXSTH : Byte := BANK_0 ||| 0x09
def ERXNDL : Byte := BANK_0 ||| 0x0A
def ERXNDH : Byte := BANK_0 ||| 0x0B
def ERXRDPTL : Byte := BANK_0 ||| 0x0C
def ERXRDPTH : Byte := BANK_0 ||| 0x0D
def EIE : Byte := commonRegs.EIE BANK_0
def EIR : Byte := commonRegs.EIR BANK_0
def ESTAT : Byte := commonRegs.ESTAT BANK_0
def ECON2 : Byte := commonRegs.ECON2 BANK_0
def ECON1 : Byte := commonRegs.ECON1 BANK_0

end bank0

namespace bank1

def EWOLIR : Byte := BANK_1 ||| 0x17
def ERXFCON : Byte := BANK_1 ||| 0x18

end bank1

namespace bank2

def MACON1 : Byte := BANK_2 ||| 0x00
def MACON3 : Byte := BANK_2 ||| 0x02
def MABBIPG : Byte := BANK_2 ||| 0x04
def MAIPGL : Byte := BANK_2 ||| 0x06
def MACLCON2 : Byte := BANK_2 ||| 0x09
def MAMXFLL : Byte := BANK_2 ||| 0x0A
def MAMXFLH : Byte := BANK_2 ||| 0x0B
def MICMD : Byte := BANK_2 ||| 0x12
def MIREGADR : Byte := BANK_2 ||| 0x14
def MIWRL : Byte := BANK_2 ||| 0x16
def MIWRH : Byte := BANK_2 ||| 0x17
def MIRDL : Byte := BANK_2 ||| 0x18
def MIRDH : Byte := BANK_2 ||| 0x19

end bank2

namespace bank3

def MAADR1 : Byte := BANK_3 ||| 0x00
def MAADR0 : Byte := BANK_3 ||| 0x01
def MAADR3 : Byte := BANK_3 ||| 0x02
def MAADR2 : Byte := BANK_3 ||| 0x03
def MAADR5 : Byte := BANK_3 ||| 0x04
def MAADR4 : Byte := BANK_3 ||| 0x05
def MISTAT : Byte := BANK_3 ||| 0x0A

end bank3

namespace phyReg

def PHCON1 : Byte := 0x00
def PHSTAT1 : Byte := 0x01
def PHID1 : Byte := 0x02
def PHID2 : Byte := 0x03
def PHSTAT2 : Byte := 0x11
def PHIE : Byte := 0x12
def PHIR : Byte := 0x13

end phyReg

namespace opcode

def u8readControlRegister : Byte := 0b000 <<< 5
def u8readBufferMemory : Byte := (0b001 <<< 5) ||| 0b11010
def u8writeControlRegister : Byte := 0b010 <<< 5
def u8WriteBufferMemory : Byte := (0b011 <<< 5) ||| 0b11010
def u8BitFieldSet : Byte := 0b100 <<< 5
def u8BitFieldClear : Byte := 0b101 <<< 5
def u8SoftReset : Byte := (0b111 <<< 5) ||| 0b11111

end opcode

/- `enc28j60_eth_int_flag`. -/
def RXERIF : Byte := 1 <<< 0
def TXERIF : Byte := 1 <<< 1
def WOLIF : Byte := 1 <<< 2
def TXIF : Byte := 1 <<< 3
def LINKIF : Byte := 1 <<< 4
def DMAIF : Byte := 1 <<< 5
def PKTIF : Byte := 1 <<< 6

/- `rx_filter_control`. -/
def RX_BROADCAST : Byte := 1 <<< 0
def RX_CRC_CHECK : Byte := 1 <<< 5
def RX_UNICAST : Byte := 1 <<< 7

/-- `convertRegValToBank`: bits 7:6 of a register number. -/
def convertRegValToBank (value : Byte) : Bank :=
  if value &&& 0xC0 = BANK_0 then .bank_0
  else if value &&& 0xC0 = BANK_1 then .bank_1
  else if value &&& 0xC0 = BANK_2 then .bank_2
  else .bank_3

/-- `convertBankToBits`. -/
def convertBankToBits (bBank : Bank) : Byte := bBank.toByte >>> 6

/-- ECON1's number in the bank the driver believes selected. -/
def Bank.econ1 (b : Bank) : Byte := commonRegs.ECON1 b.toByte

/-- The bank BSEL selects. -/
def Bank.bits (b : Bank) : BitVec 2 := (convertBankToBits b).setWidth 2

/-- Address field of a register number. -/
def regAddr (r : Byte) : BitVec 5 := r.setWidth 5

/-- The five registers that are the same in every bank. -/
def isCommon (r : Byte) : Bool := !(regAddr r).ult 0x1B

end Enc28j60
