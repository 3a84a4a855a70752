import VivadoTest.Framework.HostComm

/-!
# `VivadoTest.Framework.UartParser`: the text protocol of the host's serial line

`uartParser.vhd` character by character: the receive state machine and the registers behind
it, the bus accesses a command ends in, and the characters that answer a read. The binary
extension of the protocol, which a NUL character enters, is not followed any further.

An address ends with any character that is no hexadecimal digit, so a line feed, a carriage return
and a blank all end a command. A command of which the parser does not know the letter is skipped up
to its end.
-/

set_option autoImplicit false

namespace VivadoTest.Framework

/-- The states of `mainSm`. -/
inductive MainSm
  | mainIdle
  | mainWhite1
  | mainData
  | mainWhite2
  | mainAddr
  | mainEol
  | mainBinCmd
  deriving DecidableEq, Repr

/-- A bus access that the parser requests. -/
inductive BusOp
  | write (address : BitVec 16) (v : Byte)
  | read (address : BitVec 16)
  deriving DecidableEq, Repr

/-- The access that the parser makes on the bus in a cycle. -/
def HostBus.op (bus : HostBus) : Option BusOp :=
  if bus.regWriteEnable then some (.write bus.regAddress bus.regWriteData)
  else if bus.regReadEnable then some (.read bus.regAddress)
  else none

/-- The registers of the parser that text commands use. -/
structure UartParser where
  mainSm : MainSm
  readOp : Bool
  writeOp : Bool
  dataParam : Byte
  addrParam : BitVec 16
  deriving DecidableEq, Repr

/-- `charSpace` or `charTab`. -/
def isWhite (rxData : Byte) : Bool := rxData = 0x20 || rxData = 0x09

/-- `charCR` or `charLF`. -/
def isEol (rxData : Byte) : Bool := rxData = 0x0D || rxData = 0x0A

/-- `charRLow` or `charRHigh`. -/
def isRead (rxData : Byte) : Bool := rxData = 0x72 || rxData = 0x52

/-- `charWLow` or `charWHigh`. -/
def isWrite (rxData : Byte) : Bool := rxData = 0x77 || rxData = 0x57

/-- `dataInHexRange`. -/
def dataInHexRange (rxData : Byte) : Bool :=
  (0x30 ≤ rxData && rxData ≤ 0x39) || (0x41 ≤ rxData && rxData ≤ 0x46) ||
    (0x61 ≤ rxData && rxData ≤ 0x66)

/-- `dataNibble`. -/
def dataNibble (rxData : Byte) : BitVec 4 :=
  match rxData with
  | 0x30 => 0x0
  | 0x31 => 0x1
  | 0x32 => 0x2
  | 0x33 => 0x3
  | 0x34 => 0x4
  | 0x35 => 0x5
  | 0x36 => 0x6
  | 0x37 => 0x7
  | 0x38 => 0x8
  | 0x39 => 0x9
  | 0x41 => 0xA
  | 0x61 => 0xA
  | 0x42 => 0xB
  | 0x62 => 0xB
  | 0x43 => 0xC
  | 0x63 => 0xC
  | 0x44 => 0xD
  | 0x64 => 0xD
  | 0x45 => 0xE
  | 0x65 => 0xE
  | 0x46 => 0xF
  | 0x66 => 0xF
  | _ => 0xF

/-- `txChar`: the character of a nibble. -/
def txChar (txNibble : BitVec 4) : Char :=
  match txNibble with
  | 0x0 => '0'
  | 0x1 => '1'
  | 0x2 => '2'
  | 0x3 => '3'
  | 0x4 => '4'
  | 0x5 => '5'
  | 0x6 => '6'
  | 0x7 => '7'
  | 0x8 => '8'
  | 0x9 => '9'
  | 0xA => 'A'
  | 0xB => 'B'
  | 0xC => 'C'
  | 0xD => 'D'
  | 0xE => 'E'
  | _ => 'F'

/-- `mainSm` after a received character. -/
def MainSm.next (mainSm : MainSm) (rxData : Byte) : MainSm :=
  match mainSm with
  | .mainIdle =>
    if rxData = 0x00 then .mainBinCmd
    else if isRead rxData then .mainWhite2
    else if isWrite rxData then .mainWhite1
    else if isEol rxData then .mainIdle
    else .mainEol
  | .mainWhite1 =>
    if isWhite rxData then .mainWhite1
    else if dataInHexRange rxData then .mainData
    else if isEol rxData then .mainIdle
    else .mainEol
  | .mainData =>
    if dataInHexRange rxData then .mainData
    else if isWhite rxData then .mainWhite2
    else if isEol rxData then .mainIdle
    else .mainEol
  | .mainWhite2 =>
    if isWhite rxData then .mainWhite2
    else if dataInHexRange rxData then .mainAddr
    else if isEol rxData then .mainIdle
    else .mainEol
  | .mainAddr =>
    if dataInHexRange rxData then .mainAddr
    else if isEol rxData then .mainIdle
    else .mainEol
  | .mainEol => if isEol rxData then .mainIdle else .mainEol
  | .mainBinCmd => .mainBinCmd

namespace UartParser

/-- The registers after a received character. -/
def rx (p : UartParser) (rxData : Byte) : UartParser where
  mainSm := p.mainSm.next rxData
  readOp := if p.mainSm = .mainIdle then isRead rxData else p.readOp
  writeOp := if p.mainSm = .mainIdle then isWrite rxData else p.writeOp
  dataParam :=
    if p.mainSm = .mainWhite1 ∧ dataInHexRange rxData then (0x0 : BitVec 4) ++ dataNibble rxData
    else if p.mainSm = .mainData ∧ dataInHexRange rxData then
      p.dataParam.extractLsb' 0 4 ++ dataNibble rxData
    else p.dataParam
  addrParam :=
    if p.mainSm = .mainWhite2 ∧ dataInHexRange rxData then (0x000 : BitVec 12) ++ dataNibble rxData
    else if p.mainSm = .mainAddr ∧ dataInHexRange rxData then
      p.addrParam.extractLsb' 0 12 ++ dataNibble rxData
    else p.addrParam

/-- The bus accesses that a received character starts: the first character behind the address
does. -/
def ops (p : UartParser) (rxData : Byte) : List BusOp :=
  if p.mainSm = .mainAddr ∧ dataInHexRange rxData = false then
    (if p.writeOp then [.write p.addrParam p.dataParam] else []) ++
      (if p.readOp then [.read p.addrParam] else [])
  else []

/-- A sequence of received characters. -/
def feed (p : UartParser) : List Byte → UartParser × List BusOp
  | [] => (p, [])
  | rxData :: rest =>
    let result := (p.rx rxData).feed rest
    (result.1, p.ops rxData ++ result.2)

/-- The registers after `clr`. -/
def reset : UartParser := ⟨.mainIdle, false, false, 0, 0⟩

end UartParser

/-- The characters that answer a read: two nibbles, carriage return, line feed. -/
def readAnswer (readData : Byte) : List Char :=
  [txChar (readData.extractLsb' 4 4), txChar (readData.extractLsb' 0 4), '\r', '\n']

end VivadoTest.Framework
