/-!
# Binary — binary floating-point numbers, exactly

A finite number is counted in units of the least magnitude of its format, so it is a sign and a natural number, and
every operation is the exact one followed by one rounding to the nearest number, ties going to the even neighbour.
-/
namespace WorldAudit
namespace Number

/-- A binary format: its numbers have `precision` significant bits, are multiples of `2 ^ -scale`, and lie below
`2 ^ top`. -/
structure Format where
  precision : Nat
  scale : Nat
  top : Nat
deriving Repr, DecidableEq

/-- The format of 32 bits. -/
def Format.single : Format := ⟨24, 149, 128⟩

/-- The format of 64 bits. -/
def Format.double : Format := ⟨53, 1074, 1024⟩

inductive Binary (f : Format) where
  | nan
  | infinite (negative : Bool)
  /-- The number of `units` of the least magnitude. -/
  | finite (negative : Bool) (units : Nat)
deriving Repr, DecidableEq

abbrev Single := Binary .single
abbrev Double := Binary .double

/-- The power of two. -/
def twoTo (k : Nat) : Nat := Nat.pow 2 k

/-- The power of ten. -/
def tenTo (k : Nat) : Nat := Nat.pow 10 k

/-- The quotient to the nearest integer, ties to the even one. -/
def roundDiv (n d : Nat) : Nat :=
  let q := n / d
  let r := n % d
  if 2 * r > d ∨ (2 * r = d ∧ q % 2 = 1) then q + 1 else q

namespace Binary

variable {f : Format}

/-- The number nearest to `n / d` units. -/
def roundUnits (f : Format) (negative : Bool) (n d : Nat) : Binary f :=
  let step := twoTo (Nat.log2 (n / d) + 1 - f.precision)
  let units := roundDiv n (step * d) * step
  if units < twoTo (f.top + f.scale) then .finite negative units else .infinite negative

/-- The number nearest to `n / d`. -/
def ofRatio (f : Format) (negative : Bool) (n d : Nat) : Binary f := roundUnits f negative (n * twoTo f.scale) d

def ofNat (f : Format) (n : Nat) : Binary f := ofRatio f false n 1

def ofInt (f : Format) (n : Int) : Binary f := ofRatio f (n < 0) n.natAbs 1

def zero : Binary f := .finite false 0
def one : Binary f := ofNat f 1

/-- The number of decimal digits, none for zero. -/
def digitCount (n : Nat) : Nat := if n = 0 then 0 else (Nat.toDigits 10 n).length

/-- The number nearest to `m * 10 ^ e`.  Magnitudes far outside the format are settled by the place of their first
digit. -/
def ofDecimal (f : Format) (negative : Bool) (m : Nat) (e : Int) : Binary f :=
  let place := e + digitCount m
  if m = 0 ∨ place < -(f.scale + 1) then .finite negative 0
  else if place > f.top then .infinite negative
  else if e < 0 then ofRatio f negative m (tenTo e.natAbs)
  else ofRatio f negative (m * tenTo e.natAbs) 1

/-- The number in another format. -/
def convert (g : Format) : Binary f → Binary g
  | .nan => .nan
  | .infinite negative => .infinite negative
  | .finite negative units => roundUnits g negative (units * twoTo g.scale) (twoTo f.scale)

/-! ## Arithmetic -/

def neg : Binary f → Binary f
  | .nan => .nan
  | .infinite s => .infinite !s
  | .finite s u => .finite (!s) u

/-- Units with their sign. -/
def signed (negative : Bool) (units : Nat) : Int := if negative then -(units : Int) else units

def add : Binary f → Binary f → Binary f
  | .finite s u, .finite t v =>
    let sum := signed s u + signed t v
    if sum = 0 then .finite (s && t) 0 else roundUnits f (sum < 0) sum.natAbs 1
  | .infinite s, .infinite t => if s = t then .infinite s else .nan
  | .infinite s, .finite _ _ => .infinite s
  | .finite _ _, .infinite t => .infinite t
  | .nan, _ => .nan
  | _, .nan => .nan

def sub (x y : Binary f) : Binary f := add x y.neg

def mul : Binary f → Binary f → Binary f
  | .finite s u, .finite t v => roundUnits f (s != t) (u * v) (twoTo f.scale)
  | .infinite s, .infinite t => .infinite (s != t)
  | .infinite s, .finite t v => if v = 0 then .nan else .infinite (s != t)
  | .finite s u, .infinite t => if u = 0 then .nan else .infinite (s != t)
  | .nan, _ => .nan
  | _, .nan => .nan

def div : Binary f → Binary f → Binary f
  | .finite s u, .finite t v =>
    if v = 0 then (if u = 0 then .nan else .infinite (s != t))
    else roundUnits f (s != t) (u * twoTo f.scale) v
  | .infinite _, .infinite _ => .nan
  | .infinite s, .finite t _ => .infinite (s != t)
  | .finite s _, .infinite t => .finite (s != t) 0
  | .nan, _ => .nan
  | _, .nan => .nan

/-! ## Comparison -/

/-- Whether the numbers are ordered so; never with NaN. -/
def le : Binary f → Binary f → Bool
  | .finite s u, .finite t v => signed s u ≤ signed t v
  | .infinite s, .infinite t => s || !t
  | .infinite s, .finite _ _ => s
  | .finite _ _, .infinite t => !t
  | .nan, _ => false
  | _, .nan => false

/-- Equality of numbers: the two zeros are equal, and NaN equals nothing. -/
def eq (x y : Binary f) : Bool := le x y && le y x

def isZero (x : Binary f) : Bool := eq x zero

end Binary
end Number
end WorldAudit
