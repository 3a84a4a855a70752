import VivadoTest.Framework.Util
import VivadoTest.Lib.ByteLanes
import Mathlib.Logic.Function.Basic

/-!
# `VivadoTest.Framework.Memories`: data memory, instruction memory and register file

`DataMemory.vhd`, `InstructionMemory.vhd` and `RegisterFile.vhd`. The host reaches all three
byte by byte, and byte address `0` of a word is its most significant byte. The block RAM
macros are synchronous-read RAMs with byte write enables in their default mode
(`WRITE_FIRST`): while a port is enabled, its latch takes the addressed word as it is after
the write.

The data memory has two ports, and the host has one of them while the processor is disabled. The
instruction memory has one port, which belongs to the host then. The register file is made of
registers and has a debug port for the host, which reads a word and writes it back with one byte
changed.
-/

set_option autoImplicit false

namespace VivadoTest.Framework

open VivadoTest.Lib

/-- `dmem_byte_addr_t` and `imem_byte_addr_t`. -/
abbrev ByteAddr := BitVec 12

/-- `regfile_byte_addr_t`. -/
abbrev RegByteAddr := BitVec 7

/-- `hostcomm_byte_sel`. -/
def hostcommByteSel (addr : ByteAddr) : Nat := (addr.extractLsb' 0 2).toNat

/-- `hostcomm_dmem_addr` and `hostcomm_imem_addr`. -/
def hostcommWordAddr (addr : ByteAddr) : BitVec 10 := addr.extractLsb' 2 10

/-- `hostcomm_byte_wen_mask`: the write enable at lane 3, shifted right by the byte select. -/
def hostcommByteWenMask (wen : Bool) (addr : ByteAddr) : BitVec 4 :=
  ((BitVec.ofBool wen).setWidth 4 <<< 3) >>> hostcommByteSel addr

/-- The word `word` after the host's write: its byte is offered in every lane. -/
def hostcommWrite (wen : Bool) (addr : ByteAddr) (dataIn : Byte) (word : Datapath) : Datapath :=
  writeLanes 4 (hostcommByteWenMask wen addr).getLsbD (BitVec.replicate 4 dataIn) word

/-- Bits `(4 - sel) * 8 - 1` down to `(4 - sel - 1) * 8`. -/
def bigEndianByte (word : Datapath) (sel : Nat) : Byte := byteAt word (4 - sel - 1)

/-! ### Data memory -/

/-- The memory and the output latches of its two ports. -/
structure DataMemory where
  mem : DmemAddr → Datapath
  hostcommOut : Datapath
  procDataOut : Datapath

/-- The input ports of `DataMemory`. -/
structure DataMemoryIn where
  processorEnable : Bool
  hostcommWen : Bool
  hostcommDataIn : Byte
  hostcommAddr : ByteAddr
  procWen : Bool
  procDataIn : Datapath
  procAddr : DmemAddr

namespace DataMemory

/-- One rising edge: the processor's port works while the processor is enabled, the host's
port while it is not. -/
def step (m : DataMemory) (input : DataMemoryIn) : DataMemory :=
  if input.processorEnable then
    let word := if input.procWen then input.procDataIn else m.mem input.procAddr
    { m with
      mem := Function.update m.mem input.procAddr word
      procDataOut := word }
  else
    let addr := hostcommWordAddr input.hostcommAddr
    let word :=
      hostcommWrite input.hostcommWen input.hostcommAddr input.hostcommDataIn (m.mem addr)
    { m with
      mem := Function.update m.mem addr word
      hostcommOut := word }

/-- `hostcomm_data_out`: the addressed byte of the latch. -/
def hostcommDataOut (m : DataMemory) (hostcommAddr : ByteAddr) : Byte :=
  bigEndianByte m.hostcommOut (hostcommByteSel hostcommAddr)

end DataMemory

/-! ### Instruction memory -/

/-- The memory and the output latch of its single port. -/
structure InstructionMemory where
  mem : ImemAddr → Datapath
  dataOut : Datapath

/-- The input ports of `InstructionMemory`. -/
structure InstructionMemoryIn where
  processorEnable : Bool
  hostcommWen : Bool
  hostcommDataIn : Byte
  hostcommAddr : ByteAddr
  procAddr : ImemAddr

namespace InstructionMemory

/-- One rising edge: the port belongs to the host while the processor is disabled, and to the
processor, which only reads, while it is enabled. -/
def step (m : InstructionMemory) (input : InstructionMemoryIn) : InstructionMemory :=
  if input.processorEnable then { m with dataOut := m.mem input.procAddr }
  else
    let addr := hostcommWordAddr input.hostcommAddr
    let word :=
      hostcommWrite input.hostcommWen input.hostcommAddr input.hostcommDataIn (m.mem addr)
    { mem := Function.update m.mem addr word, dataOut := word }

/-- `hostcomm_data_out`: the addressed byte of the latch. -/
def hostcommDataOut (m : InstructionMemory) (hostcommAddr : ByteAddr) : Byte :=
  bigEndianByte m.dataOut (hostcommByteSel hostcommAddr)

end InstructionMemory

/-! ### Register file -/

/-- `regfile_t`. -/
abbrev Regfile := RegAddr → Datapath

/-- `regfile_debug_in_t`. -/
structure RegfileDebugIn where
  byteAddr : RegByteAddr
  byte : Byte
  we : Bool

namespace RegfileDebugIn

variable (d : RegfileDebugIn)

/-- The register that a byte address names. -/
def debugRegAddr : RegAddr := d.byteAddr.extractLsb' 2 5

/-- The byte of that register. -/
def debugByteSel : Nat := (d.byteAddr.extractLsb' 0 2).toNat

/-- `debug_write_value`: the addressed register with the addressed byte replaced. -/
def debugWriteValue (r : Regfile) : Datapath :=
  setByte (r d.debugRegAddr) (4 - d.debugByteSel - 1) d.byte

/-- `byte_read`. -/
def byteRead (r : Regfile) : Byte := bigEndianByte (r d.debugRegAddr) d.debugByteSel

end RegfileDebugIn

/-- One rising edge of the synthesizable register file. The debug write is made after those of
the write ports, with the value that the register had before the edge. -/
def Regfile.step {N : Nat} (r : Regfile) (rst : Bool) (writePorts : Fin N → RegfileWritePortIn)
    (debugInput : RegfileDebugIn) : Regfile :=
  if rst then fun _ => 0
  else
    let written := (List.finRange N).foldl
      (fun acc i =>
        if (writePorts i).we then Function.update acc (writePorts i).dst (writePorts i).value
        else acc) r
    if debugInput.we then
      Function.update written debugInput.debugRegAddr (debugInput.debugWriteValue r)
    else written

end VivadoTest.Framework
