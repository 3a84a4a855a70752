import VivadoTest.Lib.PyText
import Std.Data.TreeMap

/-!
# `VivadoTest.Generator.InitState`: initial register and data memory files

`init_state_util.py` and `gen_init_data_state_files.py`. An exception is `none`; a dictionary
that is printed in the order of its keys is a `Std.TreeMap`. Warnings go to the terminal and
are left out.

Each class has its `try_add`, which checks the range of what a line says and keeps the old
dictionary when the check fails. A line that no class takes is ignored with a warning.
-/

set_option autoImplicit false

namespace VivadoTest.Generator

open VivadoTest.Lib

/-! ### `init_state_util.py` -/

/-- `fixed_width_hex`. -/
def fixedWidthHex (value : Int) (bits : Nat) : Option (List Char) := do
  guard (bits % 4 = 0)
  let nibbles := bits / 4
  if value < 0 then
    let msb : Int := 2 ^ bits
    guard (msb + value > 0)
    return Nat.toDigits 16 (msb + value).toNat
  else
    let unfilledHexstr := Nat.toDigits 16 value.toNat
    guard (unfilledHexstr.length ≤ nibbles)
    return List.replicate (nibbles - unfilledHexstr.length) '0' ++ unfilledHexstr

/-- `fixed_width_bin`. -/
def fixedWidthBin (value : Int) (bits : Nat) : Option (List Char) := do
  if value < 0 then
    let msb : Int := 2 ^ bits
    guard (msb + value > 0)
    return Nat.toDigits 2 (msb + value).toNat
  else
    let unfilledBinstr := Nat.toDigits 2 value.toNat
    guard (unfilledBinstr.length ≤ bits)
    return List.replicate (bits - unfilledBinstr.length) '0' ++ unfilledBinstr

/-- `reg_update_regex_str`. -/
def regUpdateRegex : List RegexItem :=
  [.many isSpace, .one (isChar 'r'), .group isDecimal, .many isSpace, .one (isChar '='),
    .many isSpace, .group notNewline, .many isSpace, .atEnd]

/-- `dmem_update_regex_str`. -/
def dmemUpdateRegex : List RegexItem :=
  [.many isSpace] ++ "dmem_word".toList.map (fun c => .one (isChar c)) ++
    [.many isSpace, .one (isChar '['), .many isSpace, .group notNewline, .many isSpace,
      .one (isChar ']'), .many isSpace, .one (isChar '='), .many isSpace, .group notNewline,
      .many isSpace, .atEnd]

/-- `assert_in_range`. -/
def assertInRange (value minOK maxOK : Int) : Option Unit := guard (minOK ≤ value ∧ value ≤ maxOK)

/-! ### `gen_init_data_state_files.py` -/

/-- A dictionary from numbers to numbers. -/
abbrev Dict := Std.TreeMap Int Int

/-- The two groups of a match, converted. -/
def matchInts : List (List Char) → Option (Int × Int)
  | [group1, group2] => do return (← pyInt 0 group1, ← pyInt 0 group2)
  | _ => none

/-- `State.try_add`: the dictionary and whether the line was added. -/
def tryAdd (regex : List RegexItem) (addInitValue : Dict → Int → Int → Option Dict) (state : Dict)
    (line : List Char) : Dict × Bool :=
  match (matchRegex regex line).bind matchInts with
  | some (key, value) =>
    match addInitValue state key value with
    | some state => (state, true)
    | none => (state, false)
  | none => (state, false)

namespace RegisterState

/-- `add_init_value`. -/
def addInitValue (initRegvals : Dict) (regnum value : Int) : Option Dict := do
  assertInRange regnum 1 31
  assertInRange value (-(2 ^ 31)) (2 ^ 32 - 1)
  return initRegvals.insert regnum value

def tryAdd (initRegvals : Dict) (line : List Char) : Dict × Bool :=
  Generator.tryAdd regUpdateRegex addInitValue initRegvals line

/-- One line of `__str__`. -/
def line (reg value : Int) : Option (List Char) := do
  return (toString reg).toList ++ [' '] ++ (← fixedWidthHex value 32)

/-- `__str__`. -/
def str (initRegvals : Dict) : Option (List Char) := do
  return ['\n'].intercalate (← initRegvals.toList.mapM fun (reg, value) => line reg value)

end RegisterState

namespace DmemState

/-- `add_init_word`. -/
def addInitWord (depth : Int) (initDmem : Dict) (wordAddress word : Int) : Option Dict := do
  guard (0 ≤ wordAddress ∧ wordAddress < depth)
  assertInRange word (-(2 ^ 31)) (2 ^ 32)
  return initDmem.insert wordAddress word

def tryAdd (depth : Int) (initDmem : Dict) (line : List Char) : Dict × Bool :=
  Generator.tryAdd dmemUpdateRegex (addInitWord depth) initDmem line

/-- The two lines of an entry of `__str__`. -/
def line (addr value : Int) : Option (List Char) := do
  return ['@'] ++ (← fixedWidthHex addr 32) ++ ['\n'] ++ (← fixedWidthHex value 36)

/-- `__str__`. -/
def str (initDmem : Dict) : Option (List Char) := do
  return ['\n'].intercalate (← initDmem.toList.mapM fun (addr, value) => line addr value)

end DmemState

/-- `regfile_state` and `dmem_state`. -/
structure InitState where
  regfile : Dict
  dmem : Dict

/-- The body of the loop of `main`. -/
def InitState.addLine (depth : Int) (state : InitState) (line : List Char) : InitState :=
  let line := strip line
  if line.isEmpty then state
  else
    match RegisterState.tryAdd state.regfile line with
    | (regfile, true) => { state with regfile := regfile }
    | (regfile, false) => { regfile := regfile, dmem := (DmemState.tryAdd depth state.dmem line).1 }

/-- The dictionaries after the loop of `main`. -/
def initState (depth : Int) (stdin : List Char) : InitState :=
  (textLines stdin).foldl (InitState.addLine depth) ⟨∅, ∅⟩

/-- `regs_init_file` and `dmem_init_file`. -/
def genInitDataStateFiles (depth : Int) (stdin : List Char) :
    Option (List Char × List Char) := do
  let state := initState depth stdin
  return ((← RegisterState.str state.regfile) ++ ['\n'], (← DmemState.str state.dmem) ++ ['\n'])

end VivadoTest.Generator
