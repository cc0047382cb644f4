import WorldAudit.Json.Value
import WorldAudit.Json.Fault
/-!
# Numeral — numbers in JSON text

A numeral is read digit by digit.  Its significand is kept while 64 bits hold it: the digits of the whole part that no
longer fit raise the exponent, and such digits of the fraction are passed over.  The number is the rounded significand,
multiplied or divided once by a rounded power of ten, so it may differ from the nearest number in its last bit.
-/
namespace WorldAudit
namespace Json

open Number (Double)

/-- Where a numeral may go on. -/
inductive NumeralPart where
  /-- After the minus sign. -/
  | sign
  /-- After a leading zero. -/
  | zero
  | whole
  /-- After the point. -/
  | point
  | fraction
  /-- After the letter of the exponent. -/
  | letter
  | exponentSign
  | exponent
  /-- Inside an exponent so great that the number is zero. -/
  | vanished
deriving Repr, DecidableEq

structure Numeral where
  negative : Bool
  part : NumeralPart
  significand : Nat
  /-- By how many places the digits kept lie off the point. -/
  shift : Int
  /-- Whether a digit of the significand has been left out. -/
  full : Bool
  exponentNegative : Bool
  exponent : Nat
deriving Repr, DecidableEq

def Numeral.start (negative : Bool) (part : NumeralPart) (digit : Nat) : Numeral :=
  ⟨negative, part, digit, 0, false, false, 0⟩

/-- The greatest number of 64 bits. -/
def maxSignificand : Nat := 18446744073709551615

/-- The greatest exponent that is read to its end. -/
def maxExponent : Nat := 2147483647

/-- The greatest magnitude of a negative integer. -/
def maxNegative : Nat := 9223372036854775808

def digitOf (c : Char) : Nat := c.toNat - '0'.toNat

/-- One more digit of the whole part. -/
def Numeral.pushWhole (n : Numeral) (d : Nat) : Numeral :=
  if n.full || maxSignificand < 10 * n.significand + d then { n with shift := n.shift + 1, full := true }
  else { n with significand := 10 * n.significand + d }

/-- One more digit of the fraction. -/
def Numeral.pushFraction (n : Numeral) (d : Nat) : Numeral :=
  if n.full || maxSignificand < 10 * n.significand + d then { n with part := .fraction, full := true }
  else { n with part := .fraction, significand := 10 * n.significand + d, shift := n.shift - 1 }

/-- One more digit of the exponent; nothing if the number is then beyond all numbers. -/
def Numeral.pushExponent? (n : Numeral) (d : Nat) : Option Numeral :=
  if maxExponent < 10 * n.exponent + d then
    if n.significand ≠ 0 ∧ !n.exponentNegative then none else some { n with part := .vanished }
  else some { n with part := .exponent, exponent := 10 * n.exponent + d }

/-- What a character does to a numeral. -/
inductive NumeralStep where
  | more (n : Numeral)
  /-- The character no longer belongs to the numeral. -/
  | stop
  | fault (cause : Cause)

/-- Starts the fraction or the exponent, or ends the numeral. -/
def Numeral.afterDigits (n : Numeral) (c : Char) (pointAllowed : Bool) : NumeralStep :=
  if c = '.' ∧ pointAllowed then .more { n with part := .point, full := false }
  else if c = 'e' ∨ c = 'E' then .more { n with part := .letter }
  else .stop

def Numeral.step (n : Numeral) (c : Char) : NumeralStep :=
  match n.part with
  | .sign =>
    if c = '0' then .more { n with part := .zero }
    else if c.isDigit then .more { n with part := .whole, significand := digitOf c }
    else .fault .badNumber
  | .zero => if c.isDigit then .fault .badNumber else n.afterDigits c true
  | .whole => if c.isDigit then .more (n.pushWhole (digitOf c)) else n.afterDigits c true
  | .point => if c.isDigit then .more (n.pushFraction (digitOf c)) else .fault .badNumber
  | .fraction => if c.isDigit then .more (n.pushFraction (digitOf c)) else n.afterDigits c false
  | .letter =>
    if c = '+' then .more { n with part := .exponentSign }
    else if c = '-' then .more { n with part := .exponentSign, exponentNegative := true }
    else if c.isDigit then .more { n with part := .exponent, exponent := digitOf c }
    else .fault .badNumber
  | .exponentSign =>
    if c.isDigit then .more { n with part := .exponent, exponent := digitOf c } else .fault .badNumber
  | .exponent =>
    if c.isDigit then
      match n.pushExponent? (digitOf c) with
      | some n => .more n
      | none => .fault .numberTooGreat
    else .stop
  | .vanished => if c.isDigit then .more n else .stop

/-! ## The number of a numeral -/

/-- The greatest power of ten that a number may be multiplied or divided by at once. -/
def maxPower : Nat := 308

def powerOfTen (e : Nat) : Double := .ofNat .double (Number.tenTo e)

/-- Divides by a power of ten in steps of at most `maxPower`; two steps already leave zero of any significand. -/
def divideByPower (x : Double) (e : Nat) : Nat → Double
  | 0 => x
  | steps + 1 =>
    if e ≤ maxPower then x.div (powerOfTen e)
    else if x.isZero then x
    else divideByPower (x.div (powerOfTen maxPower)) (e - maxPower) steps

/-- `significand * 10 ^ e`; nothing if that is beyond all numbers. -/
def scaled? (significand : Nat) (e : Int) : Option Double :=
  let x : Double := .ofNat .double significand
  if e < 0 then some (divideByPower x e.natAbs 4)
  else if x.isZero then some x
  else if maxPower < e.natAbs then none
  else match x.mul (powerOfTen e.natAbs) with
    | .infinite _ => none
    | y => some y

def withSign (negative : Bool) (x : Double) : Double := if negative then x.neg else x

/-- Whether a numeral may end. -/
def Numeral.complete (n : Numeral) : Bool :=
  match n.part with
  | .sign | .point | .letter | .exponentSign => false
  | _ => true

/-- The value of a complete numeral. -/
def Numeral.value? (n : Numeral) : Option Value :=
  match n.part with
  | .vanished => some (.real (withSign n.negative .zero))
  | .zero | .whole =>
    if n.full then (scaled? n.significand n.shift).map fun x => .real (withSign n.negative x)
    else if !n.negative then some (.integer n.significand)
    else if 0 < n.significand ∧ n.significand ≤ maxNegative then some (.integer (-(n.significand : Int)))
    else some (.real (withSign true (.ofNat .double n.significand)))
  | _ =>
    let e := n.shift + Number.Binary.signed n.exponentNegative n.exponent
    (scaled? n.significand e).map fun x => .real (withSign n.negative x)

end Json
end WorldAudit
