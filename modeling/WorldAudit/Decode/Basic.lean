import WorldAudit.Decode.Fault
/-!
# Decode — JSON values to typed values

Decoders of scalars, lists and tuples.  A value stands either inside a record of a file or as a payload of its own; a
payload is refused with other words when it is too long, and its variants hold nothing but null.
-/
namespace WorldAudit
namespace Decode

open Json (Value)
open Number (Single)

abbrev Result (α : Type) := Except Fault α

/-- Where a value stands. -/
inductive Origin where
  | record
  | payload
deriving Repr, DecidableEq

/-- What is wanted of a sequence of more than `n` elements. -/
def Origin.upTo (o : Origin) (n : Nat) : Length :=
  match o with
  | .record => .upTo n
  | .payload => .fewer

def string : Value → Result String
  | .string s => .ok s
  | v => .error (.wrongType v .string)

def boolean : Value → Result Bool
  | .bool b => .ok b
  | v => .error (.wrongType v .boolean)

/-- An integer of a range. -/
def integer (wanted : Wanted) (low high : Int) : Value → Result Int
  | .integer n => if low ≤ n ∧ n ≤ high then .ok n else .error (.outOfRange n wanted)
  | v => .error (.wrongType v wanted)

def int32 : Value → Result Int := integer .int32 (-2147483648) 2147483647
def uint32 (v : Value) : Result Nat := (integer .uint32 0 4294967295 v).map Int.toNat
def uint16 (v : Value) : Result Nat := (integer .uint16 0 65535 v).map Int.toNat

/-- A coordinate; a number beyond the format is infinite. -/
def single : Value → Result Single
  | .integer n => .ok (.ofInt .single n)
  | .real x => .ok (x.convert .single)
  | v => .error (.wrongType v .single)

/-- A value or null. -/
def optional {α : Type} (decode : Value → Result α) : Value → Result (Option α)
  | .null => .ok none
  | v => (decode v).map some

def decodeEach {α : Type} (decode : Value → Result α) : List Value → Result (List α)
  | [] => .ok []
  | v :: vs => do
    let x ← decode v
    let xs ← decodeEach decode vs
    return x :: xs

def list {α : Type} (decode : Value → Result α) : Value → Result (List α)
  | .array elements => decodeEach decode elements
  | v => .error (.wrongType v .sequence)

/-- Two values; each is decoded before the number of elements is looked at. -/
def pair {α β : Type} (o : Origin) (first : Value → Result α) (second : Value → Result β) : Value → Result (α × β)
  | .array [] => .error (.wrongLength 0 .pair)
  | .array [a] => do
    let _ ← first a
    .error (.wrongLength 1 .pair)
  | .array (a :: b :: rest) => do
    let x ← first a
    let y ← second b
    if rest.isEmpty then .ok (x, y) else .error (.wrongLength (rest.length + 2) (o.upTo 2))
  | v => .error (.wrongType v .pair)

/-- Three values of one type. -/
def triple {α : Type} (o : Origin) (decode : Value → Result α) : Value → Result (α × α × α)
  | .array elements =>
    match elements with
    | a :: b :: c :: rest => do
      let x ← decode a
      let y ← decode b
      let z ← decode c
      if rest.isEmpty then .ok (x, y, z) else .error (.wrongLength (rest.length + 3) (o.upTo 3))
    | short => do
      let _ ← decodeEach decode short
      .error (.wrongLength short.length .triple)
  | v => .error (.wrongType v .triple)

/-- One of a list of names: the name itself, or an object with the name as its only key. -/
def variant {α : Type} (o : Origin) (variants : List (String × α)) (v : Value) : Result α :=
  let named (name : String) : Result α :=
    match variants.find? (·.1 == name) with
    | some (_, x) => .ok x
    | none => .error (.unknownVariant name (variants.map (·.1)))
  match v with
  | .string name => named name
  | .object [(name, content)] => do
    let x ← named name
    match content, o with
    | .null, _ => .ok x
    | .object [], .record => .ok x
    | other, _ => .error (.wrongType other .unit)
  | .object _ => .error .notOneKey
  | v => .error (.wrongType v .enumeration)

end Decode
end WorldAudit
