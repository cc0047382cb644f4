import WorldAudit.Number.Binary
/-!
# Settings — what a run is asked to check
-/
namespace WorldAudit

/-- The project whose conventions apply. -/
inductive Mode where
  | pt
  | td
  | tr
  | vanilla
deriving Repr, DecidableEq

namespace Mode

def all : List Mode := [.pt, .td, .tr, .vanilla]

def name : Mode → String
  | .pt => "PT"
  | .td => "TD"
  | .tr => "TR"
  | .vanilla => "Vanilla"

/-- The mode of a name; `anyCase` ignores the case of the letters A to Z. -/
def ofName? (anyCase : Bool) (name : String) : Option Mode :=
  all.find? fun m =>
    if anyCase then m.name.toList.map Char.toLower == name.toList.map Char.toLower else m.name == name

/-- What is said of a name that is no mode's. -/
def refusal (name : String) : String := s!"invalid variant: {name}"

/-- Reads the name of a mode. -/
def parse (anyCase : Bool) (name : String) : Except String Mode :=
  match ofName? anyCase name with
  | some m => .ok m
  | none => .error (refusal name)

end Mode

structure Settings where
  mode : Option Mode := none
  /-- The number of inhabitants that an interior needs; without it inhabitants are not counted. -/
  minInhabitants : Option Nat := none
  /-- The square of the distance up to which two equal references are duplicates. -/
  duplicateThreshold : Number.Single := .zero
  /-- Whether to look for similar names instead of everything else. -/
  similarNames : Bool := false

end WorldAudit
