import WorldAudit.Number.Binary
/-!
# Shortest — the fewest decimal digits that read back

Every finite number is the nearest one to all reals of an interval around it.  Its text has the fewest decimal digits
that lead into this interval, and of those the nearest to the number.  A layout decides how the digits are set out.
-/
namespace WorldAudit
namespace Number

/-- The decimal `digits * 10 ^ exponent`. -/
structure Decimal where
  digits : Nat
  exponent : Int
deriving Repr, DecidableEq

/-- A positive number as a fraction, with the ends of the interval that rounds to it. -/
structure Interval where
  low : Nat
  value : Nat
  high : Nat
  denominator : Nat
  /-- Whether the ends belong to it. -/
  closed : Bool

/-- The interval of the number of `units`, which is not zero. -/
def Interval.ofUnits (f : Format) (units : Nat) : Interval :=
  let step := twoTo (Nat.log2 units + 1 - f.precision)
  let narrow := 1 < step ∧ units = twoTo (Nat.log2 units)
  { low := 4 * units - (if narrow then step else 2 * step)
    value := 4 * units
    high := 4 * units + 2 * step
    denominator := 4 * twoTo f.scale
    closed := (units / step) % 2 = 0 }

/-- The place of the first digit: the greatest `e` with `10 ^ e` at most the number. -/
def Interval.place (i : Interval) : Int :=
  if i.denominator ≤ i.value then (Binary.digitCount (i.value / i.denominator) : Int) - 1
  else -(Binary.digitCount ((i.denominator - 1) / i.value) : Int)

/-- The decimal of the grid `10 ^ exponent` in the interval that is nearest to the number, if the grid has one there. -/
def Interval.onGrid? (i : Interval) (tiesUp : Bool) (exponent : Int) : Option Decimal :=
  let up := if exponent < 0 then tenTo exponent.natAbs else 1
  let down := if exponent < 0 then 1 else tenTo exponent.natAbs
  let grid := i.denominator * down
  let value := i.value * up
  let below := value / grid
  let inside (k : Nat) : Bool :=
    if i.closed then i.low * up ≤ k * grid && k * grid ≤ i.high * up
    else i.low * up < k * grid && k * grid < i.high * up
  let toBelow := value - below * grid
  let toAbove := (below + 1) * grid - value
  match inside below, inside (below + 1) with
  | false, false => none
  | true, false => some ⟨below, exponent⟩
  | false, true => some ⟨below + 1, exponent⟩
  | true, true =>
    if toBelow < toAbove then some ⟨below, exponent⟩
    else if toAbove < toBelow then some ⟨below + 1, exponent⟩
    else if tiesUp || below % 2 = 1 then some ⟨below + 1, exponent⟩ else some ⟨below, exponent⟩

/-- The first decimal found on grids of one more digit each; seventeen digits always suffice. -/
def Interval.shortest (i : Interval) (tiesUp : Bool) : Decimal :=
  ((List.range 17).findSome? fun (n : Nat) => i.onGrid? tiesUp (i.place - (n : Int))).getD ⟨0, 0⟩

/-- How the digits of a number are set out. -/
structure Layout where
  /-- Of two decimals as near as each other, the greater or the even one. -/
  tiesUp : Bool
  /-- The first digit stands at this place or above it where no exponent is written … -/
  leastPlain : Int
  /-- … and at this one or below it. -/
  greatestPlain : Int
  /-- What is written before an exponent that is not negative. -/
  plus : String

/-- Digits with a point after the digit at place zero, and at least one digit on either side of it. -/
def plainText (digits : List Char) (place : Int) : String :=
  let whole := place.natAbs + 1
  String.ofList <|
    if place < 0 then '0' :: '.' :: (List.replicate (place.natAbs - 1) '0' ++ digits)
    else if digits.length ≤ whole then digits ++ List.replicate (whole - digits.length) '0' ++ ['.', '0']
    else digits.take whole ++ '.' :: digits.drop whole

/-- Digits with a point after the first one, if there are more, and the place of that one as exponent. -/
def exponentText (plus : String) (digits : List Char) (place : Int) : String :=
  let significand := match digits with
    | d :: rest => if rest.isEmpty then [d] else d :: '.' :: rest
    | [] => []
  String.ofList significand ++ "e" ++ (if place < 0 then "" else plus) ++ toString place

def Layout.text (layout : Layout) (d : Decimal) : String :=
  let written := Nat.toDigits 10 d.digits
  let place := d.exponent + written.length - 1
  let digits := (written.reverse.dropWhile (· == '0')).reverse
  if layout.leastPlain ≤ place ∧ place ≤ layout.greatestPlain then plainText digits place
  else exponentText layout.plus digits place

/-- The text of a number. -/
def Binary.text {f : Format} (layout : Layout) : Binary f → String
  | .nan => "NaN"
  | .infinite negative => if negative then "-inf" else "inf"
  | .finite negative units =>
    let sign := if negative then "-" else ""
    if units = 0 then sign ++ "0.0"
    else sign ++ layout.text ((Interval.ofUnits f units).shortest layout.tiesUp)

end Number
end WorldAudit
