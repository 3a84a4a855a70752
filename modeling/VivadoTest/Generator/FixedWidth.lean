import VivadoTest.Generator.InitState

/-!
# `VivadoTest.Generator.FixedWidth`: `fixed_width_hex` and `fixed_width_bin` with their exceptions

The generators only need to know whether an encoder of `init_state_util.py` returns
(`Generator.fixedWidthHex`, `Generator.fixedWidthBin`). Here the two functions also say which
exception they raise. Both are `fixedWidth` with a base and a number of digits.
-/

set_option autoImplicit false

namespace VivadoTest.Generator.InitStateUtil

/-- The exceptions that the encoders raise. -/
inductive PyException
  | assertionError
  | nameError
  deriving DecidableEq, Repr

/-- The body that the two encoders share. -/
def fixedWidth (base digits bits : Nat) (value : Int) : Except PyException (List Char) :=
  if value < 0 then
    let msb : Int := 2 ^ bits
    if msb + value > 0 then .ok (Nat.toDigits base (msb + value).toNat)
    -- The message of the assertion names `bit`, which is not defined.
    else .error .nameError
  else
    let unfilledStr := Nat.toDigits base value.toNat
    if unfilledStr.length ≤ digits then
      .ok (List.replicate (digits - unfilledStr.length) '0' ++ unfilledStr)
    else .error .assertionError

/-- `fixed_width_hex`. -/
def fixedWidthHex (value : Int) (bits : Nat) : Except PyException (List Char) :=
  if bits % 4 = 0 then fixedWidth 16 (bits / 4) bits value else .error .assertionError

/-- `fixed_width_bin`. -/
def fixedWidthBin (value : Int) (bits : Nat) : Except PyException (List Char) :=
  fixedWidth 2 bits bits value

/-- Without the exceptions these are the functions that the generators call. -/
theorem toOption_fixedWidthHex (value : Int) (bits : Nat) :
    (fixedWidthHex value bits).toOption = Generator.fixedWidthHex value bits := by
  unfold fixedWidthHex fixedWidth Generator.fixedWidthHex guard
  dsimp only
  split_ifs <;> rfl

/-- Without the kind of the exception it is the function that the other generators use. -/
theorem toOption_fixedWidthBin (value : Int) (bits : Nat) :
    (fixedWidthBin value bits).toOption = Generator.fixedWidthBin value bits := by
  unfold fixedWidthBin fixedWidth Generator.fixedWidthBin guard
  dsimp only
  split_ifs <;> rfl

end VivadoTest.Generator.InitStateUtil
