import VivadoTest.InputTest.UlpiWrapper

/-!
# `VivadoTest.InputTest.InputModule`: the USB input

`InputModule.vhd`: the pins of the ULPI PHY, the wrapper, and the serial core behind it. The core
is not instantiated here: its outputs in each cycle are inputs (`InputModuleIn`), so that what is
proved about the module holds for every core, and what the core is given are the outputs of the
wrapper. Two entities of the core are machines of their own, `usb_packet` in
`VivadoTest.InputTest.UsbPacket` and `usb_transact` in `VivadoTest.InputTest.UsbTransact`.

The data pins pass through registers in both directions. The direction and the next signal
go to the wrapper as they are.
-/

set_option autoImplicit false

namespace VivadoTest.InputTest

open VivadoTest.Framework

/-- The pins in one cycle and the outputs of `usb_serial`. `ulpiData` is what the PHY drives
on the data pins; it drives them while `ulpiDir` is high. -/
structure InputModuleIn where
  ulpiRst : Bool
  ulpiDir : Bool
  ulpiNxt : Bool
  ulpiData : Byte
  utmiTxvalidI : Bool
  utmiDataI : Byte
  utmiXcvrselectI0 : Bool
  utmiTermselectI : Bool
  utmiOpmodeI : BitVec 2

/-- The registers of `InputModule`. -/
structure InputModule where
  a : Byte
  ulpiDataIn : Byte
  ulpiWrapper : UlpiWrapper

namespace InputModule

variable (m : InputModule) (input : InputModuleIn)

/-- `b`: the data pins. While the direction is low the module drives them. -/
def b : Byte := if input.ulpiDir then input.ulpiData else m.a

/-- The port map of `ulpi_wrapper_inst`. -/
def ulpiWrapperIn : UlpiWrapperIn where
  ulpiRstI := input.ulpiRst
  ulpiDataI := m.ulpiDataIn
  ulpiDirI := input.ulpiDir
  ulpiNxtI := input.ulpiNxt
  regAddrI := 0
  regStbI := false
  regWeI := false
  regDataI := 0
  utmiTxvalidI := input.utmiTxvalidI
  utmiDataI := input.utmiDataI
  utmiXcvrselectI := 0#1 ++ BitVec.ofBool input.utmiXcvrselectI0
  utmiTermselectI := input.utmiTermselectI
  utmiOpmodeI := input.utmiOpmodeI
  utmiDppulldownI := false
  utmiDmpulldownI := false

/-- `utmi_rxvalid_o`. -/
def utmiRxvalidO : Bool := m.ulpiWrapper.utmiRxvalidQ

/-- `utmi_data_o`. -/
def utmiDataO : Byte := m.ulpiWrapper.utmiDataQ

/-- One rising edge of `ULPI_clk`. -/
def step : InputModule where
  a := m.ulpiWrapper.ulpiDataQ
  ulpiDataIn := m.b input
  ulpiWrapper := m.ulpiWrapper.step (m.ulpiWrapperIn input)

/-- The bytes that the serial core is given in the cycles after each of `ins`, in order: those on
`utmi_data_o` while `utmi_rxvalid_o` is high. -/
def received : InputModule → List InputModuleIn → List Byte
  | _, [] => []
  | m, input :: rest =>
    let m' := m.step input
    if m'.utmiRxvalidO then m'.utmiDataO :: received m' rest else received m' rest

end InputModule

end VivadoTest.InputTest
