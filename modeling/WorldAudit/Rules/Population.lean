import WorldAudit.Audit.Rule
import WorldAudit.Text.Lower
/-!
# Population — interiors that feel empty or cannot be walked

The interiors of the last file that hold more than one reference are looked at.  Those who live in them are the
creatures and people that have been declared by then and are not dead.
-/
namespace WorldAudit
namespace Rules

/-- An interior that has been looked at. -/
structure CheckedCell where
  key : String
  name : String

structure PopulationState where
  /-- The ids of all who can live somewhere, in lower case. -/
  inhabitants : List String
  /-- The names of all cells that have a path grid, in lower case. -/
  pathGrids : List String
  /-- The interiors looked at, latest first. -/
  cells : List CheckedCell

/-- The number of references of a cell that place an inhabitant. -/
def population (inhabitants : List String) (cell : Cell) : Nat :=
  (cell.references.filter fun r => !r.isDeleted && inhabitants.contains (Text.lower r.id)).length

/-- Whether a record declares an inhabitant. -/
def declaresInhabitant : Record → Bool
  | .levelled .creature _ => true
  | .actor .creature actor | .actor .npc actor => !actor.isDead
  | _ => false

def populationStep (least : Nat) (ctx : Context) (call : Call) (s : PopulationState) : Rule.Reply PopulationState :=
  match call with
  | .record (.pathGrid grid) _ =>
    match grid.cell with
    | some cell => { state := { s with pathGrids := Text.lower cell :: s.pathGrids } }
    | none => { state := s }
  | .record (.cell cell) id =>
    if ctx.isLast && cell.isInterior && decide (1 < cell.references.length) then
      let count := population s.inhabitants cell
      { state := { s with cells := ⟨id, cell.displayName⟩ :: s.cells }
        findings := if count < least then [⟨"Cell", cell.displayName, s!"contains {count} NPCs or creatures"⟩] else [] }
    else { state := s }
  | .record record id =>
    if declaresInhabitant record then { state := { s with inhabitants := id :: s.inhabitants } } else { state := s }
  | .finish =>
    { state := s
      findings := (s.cells.reverse.filter fun c => !s.pathGrids.contains c.key).map fun c =>
        ⟨"Cell", c.name, "is missing a path grid"⟩ }
  | _ => { state := s }

/-- Asks for at least so many inhabitants. -/
def populated (least : Nat) : Rule where
  State := PopulationState
  name := "population"
  initial := ⟨[], [], []⟩
  step := populationStep least

end Rules
end WorldAudit
