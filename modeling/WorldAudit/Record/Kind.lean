/-!
# Kind — the kinds of record
-/
namespace WorldAudit

/-- What a levelled list chooses among. -/
inductive ListKind where
  | creature
  | item
deriving Repr, DecidableEq

/-- What carries an inventory. -/
inductive ActorKind where
  | container
  | creature
  | npc
deriving Repr, DecidableEq

/-- The simple objects. -/
inductive ObjectKind where
  | activator
  | alchemy
  | apparatus
  | armor
  | clothing
  | door
  | ingredient
  | light
  | lockpick
  | miscItem
  | probe
  | repairItem
  | static
  | weapon
deriving Repr, DecidableEq

inductive Kind where
  | header
  | cell
  | pathGrid
  | dialogue
  | info
  | script
  | startScript
  | enchantment
  | levelled (list : ListKind)
  | actor (actor : ActorKind)
  | book
  | object (object : ObjectKind)
  /-- A kind that no rule looks at. -/
  | other
deriving Repr, DecidableEq

def ListKind.name : ListKind → String
  | .creature => "LevelledCreature"
  | .item => "LevelledItem"

def ActorKind.name : ActorKind → String
  | .container => "Container"
  | .creature => "Creature"
  | .npc => "Npc"

def ObjectKind.name : ObjectKind → String
  | .activator => "Activator"
  | .alchemy => "Alchemy"
  | .apparatus => "Apparatus"
  | .armor => "Armor"
  | .clothing => "Clothing"
  | .door => "Door"
  | .ingredient => "Ingredient"
  | .light => "Light"
  | .lockpick => "Lockpick"
  | .miscItem => "MiscItem"
  | .probe => "Probe"
  | .repairItem => "RepairItem"
  | .static => "Static"
  | .weapon => "Weapon"

namespace Kind

def name : Kind → String
  | .header => "Header"
  | .cell => "Cell"
  | .pathGrid => "PathGrid"
  | .dialogue => "Dialogue"
  | .info => "Info"
  | .script => "Script"
  | .startScript => "StartScript"
  | .enchantment => "Enchantment"
  | .levelled l => l.name
  | .actor a => a.name
  | .book => "Book"
  | .object o => o.name
  | .other => "Other"

/-- Whether records of a kind can be placed in the world or carried, so that one to which nothing refers is unused. -/
def isPlaceable : Kind → Bool
  | .levelled _ | .actor _ | .book | .object _ => true
  | _ => false

/-- The kinds that a record file can name. -/
def known : List Kind :=
  [.header, .cell, .pathGrid, .dialogue, .info, .script, .startScript, .enchantment,
    .levelled .creature, .levelled .item, .actor .container, .actor .creature, .actor .npc, .book] ++
  ([.activator, .alchemy, .apparatus, .armor, .clothing, .door, .ingredient, .light, .lockpick, .miscItem, .probe,
    .repairItem, .static, .weapon] : List ObjectKind).map .object

/-- Second spellings of kinds. -/
def spellings : List (String × Kind) :=
  [("Enchanting", .enchantment), ("LeveledCreature", .levelled .creature), ("LeveledItem", .levelled .item),
    ("RepairTool", .object .repairItem)]

/-- The kind that a record names as its type. -/
def ofName (name : String) : Kind :=
  match known.find? (·.name == name) with
  | some kind => kind
  | none => ((spellings.find? (·.1 == name)).map (·.2)).getD .other

end Kind
end WorldAudit
