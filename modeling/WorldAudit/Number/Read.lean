import WorldAudit.Number.Binary
/-!
# Read — numbers as people write them

Counts are digits with an optional plus sign.  Measures are decimals with an optional sign, point and exponent, or the
words for infinity and for no number.
-/
namespace WorldAudit
namespace Number

/-- The number that digits write after `n`. -/
def digitsFrom (n : Nat) (digits : List Char) : Nat :=
  digits.foldl (fun n d => 10 * n + (d.toNat - '0'.toNat)) n

/-- The greatest count, of 64 bits. -/
def maxCount : Nat := 18446744073709551615

/-- A count of at most 64 bits. -/
def readCount? (cs : List Char) : Option Nat :=
  let digits := match cs with
    | '+' :: rest => rest
    | _ => cs
  if digits.isEmpty || !digits.all Char.isDigit then none
  else
    let n := digitsFrom 0 digits
    if n ≤ maxCount then some n else none

/-- An exponent: digits with an optional sign. -/
def readExponent? (cs : List Char) : Option Int :=
  let (negative, digits) := match cs with
    | '-' :: rest => (true, rest)
    | '+' :: rest => (false, rest)
    | _ => (false, cs)
  if digits.isEmpty || !digits.all Char.isDigit then none
  else some (Binary.signed negative (digitsFrom 0 digits))

/-- A decimal without sign: `m * 10 ^ e` as the pair of `m` and `e`. -/
def readDecimal? (cs : List Char) : Option (Nat × Int) :=
  let whole := cs.takeWhile Char.isDigit
  let afterWhole := cs.dropWhile Char.isDigit
  let (fraction, rest) := match afterWhole with
    | '.' :: more => (more.takeWhile Char.isDigit, more.dropWhile Char.isDigit)
    | _ => ([], afterWhole)
  if whole.isEmpty && fraction.isEmpty then none
  else
    let m := digitsFrom (digitsFrom 0 whole) fraction
    match rest with
    | [] => some (m, -(fraction.length : Int))
    | c :: exponent =>
      if c = 'e' ∨ c = 'E' then (readExponent? exponent).map fun e => (m, e - fraction.length) else none

/-- A number of the format `f`, rounded once. -/
def readBinary? (f : Format) (cs : List Char) : Option (Binary f) :=
  let (negative, body) := match cs with
    | '-' :: rest => (true, rest)
    | '+' :: rest => (false, rest)
    | _ => (false, cs)
  match readDecimal? body with
  | some (m, e) => some (.ofDecimal f negative m e)
  | none =>
    let word := body.map Char.toLower
    if word = "inf".toList ∨ word = "infinity".toList then some (.infinite negative)
    else if word = "nan".toList then some .nan
    else none

end Number
end WorldAudit
