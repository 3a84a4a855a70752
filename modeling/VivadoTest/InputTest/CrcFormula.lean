import Mathlib.Data.Finset.Card
import Mathlib.Algebra.Order.Ring.Nat

/-!
# `VivadoTest.InputTest.CrcFormula`: the generator of the CRC formulae

`crcformula.py`, from which the formulae of `crc5_upd` and `crc16_upd` in `usb_packet.vhdl` come. A
term is a dictionary whose keys are the variables that are added up, so it is a finite set here. A
word is a list of terms, the lowest bit first. An exception of the script is `none`.

`updsymcrc` is the symbolic update by one bit. The three programs for formulae call it in different
ways: with the incoming bits one by one, with a name for the sum of register and input, and with a
second name for the register after half of the bits.
-/

set_option autoImplicit false

namespace VivadoTest.InputTest.CrcFormula

/-- A variable: a prefix and a bit number. -/
abbrev Var := Char × Nat

/-- A term of a formula: the variables that are added up modulo 2. -/
abbrev Term := Finset Var

/-- `poly5`, lowest bit first. -/
def poly5 : List Nat := [1, 0, 1, 0, 0]

/-- `poly16`, lowest bit first. -/
def poly16 : List Nat := [1, 0, 1, 0, 0, 0, 0, 0, 0, 0, 0, 0, 0, 0, 0, 1]

/-- `xorsym`. -/
def xorsym (p q : Term) : Term := p.filter (· ∉ q) ∪ q.filter (· ∉ p)

/-- `updsymcrc`. The buffer `c` is at least as long as `poly`. -/
def updsymcrc (c : List Term) (bit : Term) (poly : List Nat) : Option (List Term) := do
  let high ← c.getLast?
  let t := xorsym bit high
  let c := ∅ :: c.dropLast
  let d := c.length - poly.length
  return (List.range poly.length).foldl
    (fun c i => if poly.getD i 0 ≠ 0 then c.modify (i + d) (xorsym · t) else c) c

/-- `symword`. -/
def symword (letter : Char) (n : Nat) : List Term := (List.range n).map fun i => {(letter, i)}

/-- `crcformula`. -/
def crcformula (poly : List Nat) (newbits : Nat) : Option (List Term) :=
  (List.range newbits).foldlM (fun y i => updsymcrc y {('i', i)} poly) (symword 'c' poly.length)

/-- The old CRC value with the incoming byte added to it, aligned at the high end. -/
def xorAligned (c b : List Term) : List Term :=
  (List.range (min c.length b.length)).map fun k =>
    let i := min c.length b.length - k
    xorsym (c.getD (c.length - i) ∅) (b.getD (b.length - i) ∅)

/-- `y` with the bits of the old CRC or of the incoming byte in front that were not used in `t`. -/
def prependUnused (c b t y : List Term) : List Term :=
  let y := if t.length < c.length then c.take (c.length - t.length) ++ y else y
  if t.length < b.length then b.take (b.length - t.length) ++ y else y

/-- The low bits of the word taken off, which have to be empty. -/
def truncate (y : List Term) (n : Nat) : Option (List Term) :=
  if ((y.take (y.length - n)).map Finset.card).sum = 0 then some (y.drop (y.length - n)) else none

/-- `newbits` updates for incoming zeros. -/
def updZeros (poly : List Nat) (newbits : Nat) (y : List Term) : Option (List Term) :=
  (List.range newbits).foldlM (fun y _ => updsymcrc y ∅ poly) y

/-- `decomposedformula`. -/
def decomposedformula (poly : List Nat) (newbits : Nat) : Option (List Term × List Term) := do
  let c := symword 'c' poly.length
  let b := (symword 'b' newbits).reverse
  let t := xorAligned c b
  let y ← updZeros poly newbits (prependUnused c b t (symword 't' t.length))
  let y ← if poly.length < y.length then truncate y poly.length else some y
  return (t, y)

/-- `twicehalfformula`. -/
def twicehalfformula (poly : List Nat) : Option (List Term × List Term × List Term) := do
  let c := symword 'c' poly.length
  let b := (symword 'b' 8).reverse
  let t := xorAligned c b
  let x ← updZeros poly 4 (prependUnused c b t (symword 't' t.length))
  let x ← if poly.length < x.length ∧ 4 < x.length then truncate x (max poly.length 4) else some x
  let y ← updZeros poly 4 (symword 'x' x.length)
  let y ← if poly.length < y.length then truncate y poly.length else some y
  return (t, x, y)

end VivadoTest.InputTest.CrcFormula
