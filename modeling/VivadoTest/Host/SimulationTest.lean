import VivadoTest.Lib.PyText
import VivadoTest.Framework.Tb

/-!
# `VivadoTest.Host.SimulationTest`: the harness around a simulation

What becomes of the log file of a simulation: `run_tb_cfg.sh` prints its last line, and
`simulation_test` of `process_tests.py` grades the test by the first line that the script
prints.
-/

set_option autoImplicit false

namespace VivadoTest.Host

open VivadoTest.Lib
open VivadoTest.Framework.Tb

/-- The log file: `writeline` ends each line. -/
def logText (log : List LogLine) : List Char := unlines (log.map fun l => l.text.toList)

/-- The names of the files that `run_tb_cfg.sh` prints. -/
structure TbCfgNames where
  logFile : List Char
  xsimStdoutLog : List Char
  xsimStderrLog : List Char

/-- `$(tail -n1 file)`: the last line without its newline, which is the only one in it. -/
def tailLine (file : List Char) : List Char := (textLines file).getLast?.getD []

/-- What `run_tb_cfg.sh` prints: `simLaunchErrors` is the text of the simulator's error log, and
`logFile` the text of the log file, if there is one. The script reads the error log with `$(cat
...)`, which drops newlines at the end, so an error log of newlines only is an empty one to it,
and not here. On an empty one, which the results are about, the two agree. -/
def runTbCfg (names : TbCfgNames) (simLaunchErrors : List Char) (logFile : Option (List Char)) :
    List Char :=
  if simLaunchErrors ≠ [] then
    "[FAILURE]: Failed to launch test.  Check ".toList ++ names.xsimStderrLog ++
      " for details.\n".toList
  else
    match logFile with
    | none => "!!! [TEST SETUP BUG]: Could not find log file '".toList ++ names.logFile ++
        "'\n".toList
    | some text =>
      let result := tailLine text
      if result = [] then
        "Log file ".toList ++ names.logFile ++
          " empty - simulation probably crashed.  Check ".toList
          ++ names.xsimStdoutLog ++ " for details.\n".toList
      else result ++ ['\n']

/-- `s[:s.find('\n')]`. Without a newline `find` returns `-1`, which cuts off the last
character. -/
def firstLine (s : List Char) : List Char :=
  if '\n' ∈ s then s.takeWhile (· ≠ '\n') else s.dropLast

/-- The points that `simulation_test` returns for what the script has printed. The program opens
the pipes with universal newlines, so it reads CR LF and CR as LF; that is left out here, as
neither the script nor a line of the log contains a CR. -/
def simulationTest (stdout stderr : List Char) : Nat :=
  let resStr := if stderr ≠ [] then firstLine stderr else firstLine stdout
  if "[OK]".toList.isPrefixOf resStr then
    if "Test success.".toList.isSuffixOf resStr then 1 else 0
  else if "[FAILURE]".toList.isPrefixOf resStr then 0
  else 0

end VivadoTest.Host
