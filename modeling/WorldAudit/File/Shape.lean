import WorldAudit.Json.Print
/-!
# Shape — what every record file looks like

A record file is an array of objects.  Each has a type, which is a text that is not empty, and its id, if it has one,
is a text.
-/
namespace WorldAudit
namespace Shape

open Json (Value)

/-- The first departure from the shape, with the index of the element. -/
inductive Fault where
  | notArray (found : Value)
  | notObject (index : Nat) (found : Value)
  | idNotText (index : Nat) (found : Value)
  | typeNotText (index : Nat) (found : Value)
  | typeEmpty (index : Nat)
  | typeMissing (index : Nat)
deriving Repr

/-- The path of the value at fault. -/
def Fault.pointer : Fault → String
  | .notArray _ => ""
  | .notObject i _ | .typeMissing i => s!"/{i}"
  | .idNotText i _ => s!"/{i}/id"
  | .typeNotText i _ | .typeEmpty i => s!"/{i}/type"

def notOfType (found : Value) (name : String) : String := found.text ++ " is not of type " ++ Json.stringText name

def Fault.message : Fault → String
  | .notArray found => notOfType found "array"
  | .notObject _ found => notOfType found "object"
  | .idNotText _ found | .typeNotText _ found => notOfType found "string"
  | .typeEmpty _ => "\"\" is shorter than 1 character"
  | .typeMissing _ => "\"type\" is a required property"

/-- The first fault of element `i`: its id is looked at before its type. -/
def elementFault? (i : Nat) : Value → Option Fault
  | .object fields =>
    match Catalog.get? "id" fields with
    | none | some (.string _) =>
      match Catalog.get? "type" fields with
      | none => some (.typeMissing i)
      | some (.string s) => if s.isEmpty then some (.typeEmpty i) else none
      | some found => some (.typeNotText i found)
    | some found => some (.idNotText i found)
  | found => some (.notObject i found)

/-- The first fault of the elements from number `i` on. -/
def elementsFault? (i : Nat) : List Value → Option Fault
  | [] => none
  | v :: vs => elementFault? i v <|> elementsFault? (i + 1) vs

def fault? : Value → Option Fault
  | .array elements => elementsFault? 0 elements
  | found => some (.notArray found)

end Shape
end WorldAudit
