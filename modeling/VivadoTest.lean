import VivadoTest.Lib.Clocked
import VivadoTest.Lib.GreedyMatch
import VivadoTest.Lib.Noting
import VivadoTest.Lib.Loops
import VivadoTest.Lib.CrossOff
import VivadoTest.Lib.ByteLanes
import VivadoTest.Framework.Util
import VivadoTest.Framework.TestChecks
import VivadoTest.Framework.TestMonitor
import VivadoTest.Spec.Judge
import VivadoTest.Spec.Trace
import VivadoTest.Framework.MIPSSystem
import VivadoTest.Spec.MemoryMap
import VivadoTest.Lib.Numeral
import VivadoTest.Lib.PyText
import VivadoTest.Framework.UartParser
import VivadoTest.Host.HostcommProxy
import VivadoTest.Lib.Returns
import VivadoTest.Lib.Shell
import VivadoTest.Lib.ShellWords
import VivadoTest.Host.SerialLine
import VivadoTest.Host.SimulationTest
import VivadoTest.Generator.InitState
import VivadoTest.Generator.FixedWidth
import VivadoTest.Generator.FpgaInit
import VivadoTest.Generator.ExpectedUpdates
import VivadoTest.Generator.TestFiles
import VivadoTest.Generator.TestSection
import VivadoTest.Generator.TestNames
import VivadoTest.Host.FpgaTest
import VivadoTest.Host.RunFpgaTest
import VivadoTest.Host.TestNames
import VivadoTest.Lib.TextIO
import VivadoTest.Framework.SimInit
import VivadoTest.Host.Transfer
import VivadoTest.Lib.GroupBy
import VivadoTest.Lib.PurePath
import VivadoTest.Host.TestTree
import VivadoTest.Spec.Score
import VivadoTest.Spec.Disabled
import VivadoTest.Spec.InitialState
import VivadoTest.Spec.Traversal
import VivadoTest.Spec.TestFile
import VivadoTest.Spec.TestPath
import VivadoTest.Proofs.AcceptedLines
import VivadoTest.Proofs.Agreement
import VivadoTest.Proofs.CycleCount
import VivadoTest.Proofs.Disabled
import VivadoTest.Proofs.ExpectedUpdates
import VivadoTest.Proofs.HostReads
import VivadoTest.Proofs.Independence
import VivadoTest.Proofs.InitMem
import VivadoTest.Proofs.InitStateUtil
import VivadoTest.Proofs.InitialFiles
import VivadoTest.Proofs.InitialState
import VivadoTest.Proofs.InputModule
import VivadoTest.Proofs.Isolation
import VivadoTest.Proofs.LoadedState
import VivadoTest.Proofs.LoadedWords
import VivadoTest.Proofs.MemoryMap
import VivadoTest.Proofs.Overrun
import VivadoTest.Proofs.Report
import VivadoTest.Proofs.RunFpgaTest
import VivadoTest.Proofs.Score
import VivadoTest.Proofs.SimResult
import VivadoTest.Proofs.Tb
import VivadoTest.Proofs.TbAccess
import VivadoTest.Proofs.TbChecks
import VivadoTest.Proofs.TestChecks
import VivadoTest.Proofs.TestConfig
import VivadoTest.Proofs.TestMonitor
import VivadoTest.Proofs.TestNames
import VivadoTest.Proofs.TestSection
import VivadoTest.Proofs.Timeout
import VivadoTest.Proofs.Transfer
import VivadoTest.Proofs.Traversal
import VivadoTest.Proofs.UartAddress
import VivadoTest.Proofs.UartCalls
import VivadoTest.Proofs.UartLine
import VivadoTest.Proofs.UartParser
import VivadoTest.Proofs.UpdateRoundTrip
import VivadoTest.Proofs.Verdict
import VivadoTest.Proofs.VerdictTime
import VivadoTest.Proofs.UsbTransmit
import VivadoTest.Proofs.UartLoop
import VivadoTest.Proofs.UsbDetect
import VivadoTest.Proofs.CrcFormula
import VivadoTest.Proofs.UsbTransaction
import VivadoTest.Proofs.WiredBoard
