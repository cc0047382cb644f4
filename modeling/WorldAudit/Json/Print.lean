import WorldAudit.Json.Value
import WorldAudit.Number.Shortest
/-!
# Print — JSON values as compact text
-/
namespace WorldAudit
namespace Json

/-- Numbers of sixteen places before the point and five after it are written plainly. -/
def numberLayout : Number.Layout := ⟨false, -5, 15, "+"⟩

def hexText (n : Nat) : Char := Char.ofNat (if n < 10 then 48 + n else 87 + n)

/-- A character inside a string: quotes, backslashes and control characters are escaped. -/
def escapeChar (c : Char) : List Char :=
  match c with
  | '"' => ['\\', '"']
  | '\\' => ['\\', '\\']
  | '\x08' => ['\\', 'b']
  | '\x0c' => ['\\', 'f']
  | '\n' => ['\\', 'n']
  | '\r' => ['\\', 'r']
  | '\t' => ['\\', 't']
  | _ => if c < ' ' then ['\\', 'u', '0', '0', hexText (c.toNat / 16), hexText (c.toNat % 16)] else [c]

def stringText (s : String) : String := "\"" ++ String.ofList (s.toList.flatMap escapeChar) ++ "\""

/-- A number; JSON has no text for the others. -/
def realText : Number.Double → String
  | .finite negative units => (Number.Binary.finite negative units : Number.Double).text numberLayout
  | _ => "null"

example : realText (.ofNat .double 7) = "7.0" := by decide +kernel
example : realText (.ofDecimal .double false 1 (-5)) = "0.00001" := by decide +kernel
example : realText (.ofDecimal .double false 15 20) = "1.5e+21" := by decide +kernel

mutual

/-- A value without white space. -/
def Value.text : Value → String
  | .null => "null"
  | .bool b => if b then "true" else "false"
  | .integer n => toString n
  | .real x => realText x
  | .string s => stringText s
  | .array elements => "[" ++ String.intercalate "," (elementTexts elements) ++ "]"
  | .object fields => "\x7b" ++ String.intercalate "," (fieldTexts fields) ++ "\x7d"

def elementTexts : List Value → List String
  | [] => []
  | value :: values => value.text :: elementTexts values

def fieldTexts : List (String × Value) → List String
  | [] => []
  | (key, value) :: fields => (stringText key ++ ":" ++ value.text) :: fieldTexts fields

end

end Json
end WorldAudit
