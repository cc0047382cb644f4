import WorldAudit.Catalog
import WorldAudit.Number.Binary
/-!
# Value — JSON values

The keys of an object ascend, and each stands once.
-/
namespace WorldAudit
namespace Json

inductive Value where
  | null
  | bool (b : Bool)
  /-- A number written without point and exponent that 64 bits hold. -/
  | integer (n : Int)
  | real (x : Number.Double)
  | string (s : String)
  | array (elements : List Value)
  | object (fields : List (String × Value))
deriving Repr

instance : Inhabited Value := ⟨.null⟩

abbrev Fields := Catalog Value

/-- The value of a field of an object. -/
def Value.get? (key : String) : Value → Option Value
  | .object fields => Catalog.get? key fields
  | _ => none

def Value.asString? : Value → Option String
  | .string s => some s
  | _ => none

end Json
end WorldAudit
