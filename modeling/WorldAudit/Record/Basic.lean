import WorldAudit.Number.Shortest
import WorldAudit.Record.Kind
import WorldAudit.Text.Blank
/-!
# Record — the records of a game world

A record file is a list of records of many kinds.  Ids are compared without regard to case, but kept as they are
written.
-/
namespace WorldAudit

open Number (Single)

structure Header where
  author : Option String := none
  description : Option String := none
deriving DecidableEq

/-- A place or a rotation: three coordinates. -/
structure Triple where
  x : Single
  y : Single
  z : Single
deriving Repr, DecidableEq

def Triple.zero : Triple := ⟨.zero, .zero, .zero⟩

/-- An object placed in a cell. -/
structure Reference where
  id : String
  position : Triple := .zero
  rotation : Triple := .zero
  scale : Option Single := none
  owner : Option String := none
  key : Option String := none
  deleted : Option Bool := none
deriving DecidableEq

def Reference.isDeleted (r : Reference) : Bool := r.deleted.getD false

structure CellData where
  flags : Nat := 0
  x : Int := 0
  y : Int := 0
deriving DecidableEq

structure Cell where
  id : String := ""
  region : Option String := none
  data : CellData := {}
  references : List Reference := []
deriving DecidableEq

/-- The lowest flag marks interiors. -/
def Cell.isInterior (c : Cell) : Bool := c.data.flags.testBit 0

/-- An interior goes by its id; an exterior by its id, or else its region, and its place on the grid. -/
def Cell.displayName (c : Cell) : String :=
  if c.isInterior then c.id
  else
    let name := if c.id.isEmpty then c.region.getD "" else c.id
    let place := s!"{c.data.x},{c.data.y}"
    if name.isEmpty then place else s!"{name} {place}"

structure PathGrid where
  cell : Option String := none
deriving DecidableEq

inductive DialogueType where
  | topic
  | voice
  | greeting
  | persuasion
  | journal
deriving Repr, DecidableEq

structure Dialogue where
  id : String
  type : DialogueType := .topic
deriving DecidableEq

def Dialogue.isJournal (d : Dialogue) : Bool := d.type == .journal

inductive QuestState where
  | name
  | finished
  | restart
deriving Repr, DecidableEq

structure InfoData where
  disposition : Int := 0
  type : Option DialogueType := none
deriving DecidableEq

/-- A response of a dialogue topic or an entry of a journal topic. -/
structure Info where
  id : String
  text : Option String := none
  /-- The script that runs when the response is given. -/
  result : Option String := none
  data : InfoData := {}
  questState : Option QuestState := none
deriving DecidableEq

structure ScriptText where
  id : String
  text : String := ""
deriving DecidableEq

/-- A script that runs from the start of the game. -/
structure StartScript where
  id : String
  script : Option String := none
deriving DecidableEq

structure Enchantment where
  id : String
deriving DecidableEq

structure LevelledEntry where
  id : String
  level : Nat
deriving Repr, DecidableEq

structure LevelledList where
  id : String
  flags : Nat := 0
  entries : List LevelledEntry := []
deriving DecidableEq

structure InventoryEntry where
  count : Int
  id : String
deriving Repr, DecidableEq

structure ActorStats where
  health : Option Int := none
deriving DecidableEq

structure ActorData where
  health : Option Int := none
  stats : Option ActorStats := none
deriving DecidableEq

/-- Containers, creatures and people: all that carries an inventory. -/
structure Actor where
  id : String
  name : Option String := none
  script : Option String := none
  inventory : List InventoryEntry := []
  data : Option ActorData := none
deriving DecidableEq

/-- An actor without health is dead. -/
def Actor.isDead (a : Actor) : Bool :=
  match a.data with
  | none => false
  | some data => data.health == some 0 || (data.stats.bind (·.health)) == some 0

structure Book where
  id : String
  name : Option String := none
  script : Option String := none
  enchanting : Option String := none
  text : Option String := none
deriving DecidableEq

structure Object where
  id : String
  name : Option String := none
  script : Option String := none
  enchanting : Option String := none
  mesh : Option String := none
deriving DecidableEq

inductive Record where
  | header (header : Header)
  | cell (cell : Cell)
  | pathGrid (grid : PathGrid)
  | dialogue (dialogue : Dialogue)
  | info (info : Info)
  | script (script : ScriptText)
  | startScript (start : StartScript)
  | enchantment (enchantment : Enchantment)
  | levelled (kind : ListKind) (list : LevelledList)
  | actor (kind : ActorKind) (actor : Actor)
  | book (book : Book)
  | object (kind : ObjectKind) (object : Object)
  | other
deriving DecidableEq

namespace Record

def kind : Record → Kind
  | .header _ => .header
  | .cell _ => .cell
  | .pathGrid _ => .pathGrid
  | .dialogue _ => .dialogue
  | .info _ => .info
  | .script _ => .script
  | .startScript _ => .startScript
  | .enchantment _ => .enchantment
  | .levelled k _ => .levelled k
  | .actor k _ => .actor k
  | .book _ => .book
  | .object k _ => .object k
  | .other => .other

/-- The id of a record, if records of its kind have one. -/
def id? : Record → Option String
  | .header _ | .pathGrid _ | .other => none
  | .cell r => some r.id
  | .dialogue r => some r.id
  | .info r => some r.id
  | .script r => some r.id
  | .startScript r => some r.id
  | .enchantment r => some r.id
  | .levelled _ r => some r.id
  | .actor _ r => some r.id
  | .book r => some r.id
  | .object _ r => some r.id

/-- The id, empty for kinds that have none. -/
def id (r : Record) : String := r.id?.getD ""

/-- A value that says something. -/
def nonBlank? (value : Option String) : Option String :=
  value.filter fun s => !Text.allBlank s.toList

/-- The script attached to a record. -/
def script? : Record → Option String
  | .startScript r => nonBlank? r.script
  | .actor _ r => nonBlank? r.script
  | .book r => nonBlank? r.script
  | .object _ r => nonBlank? r.script
  | _ => none

/-- The enchantment put on a record. -/
def enchanting? : Record → Option String
  | .book r => nonBlank? r.enchanting
  | .object _ r => nonBlank? r.enchanting
  | _ => none

/-- How a record is named to its authors. -/
def subject : Record → String
  | .cell c => c.displayName
  | .pathGrid g => g.cell.getD ""
  | r => r.id

end Record

/-- Coordinates of sixteen places before the point and four after it are written plainly. -/
def coordinateLayout : Number.Layout := ⟨true, -4, 15, ""⟩

def coordinateText (x : Single) : String := x.text coordinateLayout

example : coordinateText .one = "1.0" := by decide +kernel
example : coordinateText (.ofDecimal .single true 1 (-4)) = "-0.0001" := by decide +kernel
example : coordinateText (.ofDecimal .single false 15 (-6)) = "1.5e-5" := by decide +kernel
example : coordinateText (.ofNat .single 10000000000000000) = "1e16" := by decide +kernel
example : coordinateText (.finite true 0) = "-0.0" := by decide +kernel

def Triple.text (t : Triple) : String :=
  s!"[{coordinateText t.x}, {coordinateText t.y}, {coordinateText t.z}]"

end WorldAudit
