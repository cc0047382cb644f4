import WorldAudit.Json.Print
import WorldAudit.Text.Shown
/-!
# Fault — why a value is not a record
-/
namespace WorldAudit
namespace Decode

/-- What a value was wanted for. -/
inductive Wanted where
  | string
  | boolean
  | int32
  | uint32
  | uint16
  | single
  | sequence
  | pair
  | triple
  | enumeration
  | unit
  | kindName
  | record
  /-- A payload with this title. -/
  | payload (title : String)
deriving Repr, DecidableEq

/-- Which number of elements was wanted. -/
inductive Length where
  | pair
  | triple
  | payload (title : String) (fields : Nat)
  /-- No more than this many. -/
  | upTo (n : Nat)
  /-- Fewer, whatever their number. -/
  | fewer
deriving Repr, DecidableEq

inductive Fault where
  | wrongType (found : Json.Value) (wanted : Wanted)
  | outOfRange (n : Int) (wanted : Wanted)
  | wrongLength (length : Nat) (wanted : Length)
  | missingField (name : String)
  | duplicateField (name : String)
  | unknownVariant (name : String) (known : List String)
  | notOneKey
deriving Repr

def Wanted.text : Wanted → String
  | .string => "a string"
  | .boolean => "a boolean"
  | .int32 => "i32"
  | .uint32 => "u32"
  | .uint16 => "u16"
  | .single => "f32"
  | .sequence => "a sequence"
  | .pair => "a tuple of size 2"
  | .triple => "an array of length 3"
  | .enumeration => "string or map"
  | .unit => "unit"
  | .kindName => "variant identifier"
  | .record => "internally tagged enum Record"
  | .payload title => s!"struct {title}"

def elementCount (n : Nat) : String := if n = 1 then "1 element" else s!"{n} elements"

def Length.text : Length → String
  | .pair => Wanted.text .pair
  | .triple => Wanted.text .triple
  | .payload title n => s!"struct {title} with {elementCount n}"
  | .upTo n => s!"{elementCount n} in sequence"
  | .fewer => "fewer elements in array"

/-- What a value is, for a message. -/
def describe : Json.Value → String
  | .null => "null"
  | .bool b => if b then "boolean `true`" else "boolean `false`"
  | .integer n => s!"integer `{n}`"
  | .real x => s!"floating point `{Json.realText x}`"
  | .string s => s!"string {Text.shown s}"
  | .array _ => "sequence"
  | .object _ => "map"

def Fault.message : Fault → String
  | .wrongType found wanted => s!"invalid type: {describe found}, expected {wanted.text}"
  | .outOfRange n wanted => s!"invalid value: integer `{n}`, expected {wanted.text}"
  | .wrongLength n wanted => s!"invalid length {n}, expected {wanted.text}"
  | .missingField name => s!"missing field `{name}`"
  | .duplicateField name => s!"duplicate field `{name}`"
  | .unknownVariant name known =>
    s!"unknown variant `{name}`, expected one of " ++ String.intercalate ", " (known.map fun k => s!"`{k}`")
  | .notOneKey => "invalid value: map, expected map with a single key"

end Decode
end WorldAudit
