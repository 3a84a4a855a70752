import VivadoTest.Lib.Shell
import VivadoTest.Lib.ByteLanes

/-!
# `VivadoTest.Generator.FpgaInit`: initial memory contents byte by byte

`gen_init_imem_file.sh` behind the cross-assembler, and the filters `gen_fpga_init_imem.sh`,
`gen_fpga_init_dmem.sh` and `gen_fpga_init_regfile.sh`: from the files that the simulation
reads to lines of a byte offset and a byte.

What the assembler makes of the test code is a parameter of the model: the words of the program.
From there on the files are text, and each filter is the chain of commands that the script has.
-/

set_option autoImplicit false

namespace VivadoTest.Generator

open VivadoTest.Lib

/-- A word as `od -t x4` prints it, without the blank before it. -/
def odWord (word : BitVec 32) : List Char := (Nat.toDigits 16 word.toNat).leftpad 8 '0'

/-- `xargs -n1 -I{} echo "0{}" | tr -d '\n'` on the words of the program. -/
def genInitImemFile (program : List (BitVec 32)) : List Char :=
  program.flatMap fun word => '0' :: odWord word

/-- `gen_fpga_init_imem.sh`. -/
def genFpgaInitImem (stdin : List Char) : List Char :=
  unlines (Shell.nl 0
    ((textLines (Shell.fold 2 0 (Shell.cut (Shell.fold 9 0 stdin)))).map fun line =>
    "0x".toList ++ Shell.field 1 line))

/-- What the loop of the two `awk` programs prints for a word: its bytes from the most
significant one on, with their byte addresses. -/
def awkBytes (wordAddress word : Nat) : List (List Char) :=
  (List.range 4).map fun i =>
    Nat.toDigits 10 (4 * wordAddress + i) ++
      ' ' :: Nat.toDigits 10 ((word >>> (8 * (3 - i))) &&& 0xFF)

/-- `gen_fpga_init_dmem.sh`. -/
def genFpgaInitDmem (stdin : List Char) : List Char :=
  unlines ((textLines (Shell.xargs (Shell.cut stdin))).flatMap fun line =>
    awkBytes (Shell.strtonumHex (Shell.field 1 line)) (Shell.strtonumHex (Shell.field 2 line)))

/-- `gen_fpga_init_regfile.sh`. -/
def genFpgaInitRegfile (stdin : List Char) : List Char :=
  unlines ((textLines stdin).flatMap fun line =>
    awkBytes (Shell.number (Shell.field 1 line)) (Shell.strtonumHex (Shell.field 2 line)))

end VivadoTest.Generator
