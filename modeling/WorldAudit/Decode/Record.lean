import WorldAudit.Decode.Layout
import WorldAudit.Record.Basic
/-!
# Record — the payloads of the kinds of record
-/
namespace WorldAudit
namespace Decode

open Json (Value)

/-! ## Fields of common types -/

def text (_ : Origin) : Value → Result String := string
def textOrNull (_ : Origin) : Value → Result (Option String) := optional string
def flags (_ : Origin) : Value → Result Nat := uint32
def healthOrNull (_ : Origin) : Value → Result (Option Int) := optional int32

def coordinates (o : Origin) (v : Value) : Result Triple := (triple o single v).map fun (x, y, z) => ⟨x, y, z⟩

def dialogueTypes : List (String × DialogueType) :=
  [("Topic", .topic), ("Voice", .voice), ("Greeting", .greeting), ("Persuasion", .persuasion), ("Journal", .journal)]

def questStates : List (String × QuestState) := [("Name", .name), ("Finished", .finished), ("Restart", .restart)]

/-! ## Payloads -/

def header : Layout Header where
  title := "Header"
  blank := {}
  fields := [
    .default "author" textOrNull fun r x => { r with author := x },
    .default "description" textOrNull fun r x => { r with description := x }]

def cellData : Layout CellData where
  title := "CellData"
  blank := {}
  fields := [
    .default "flags" flags fun r x => { r with flags := x },
    .default "grid" (fun o => pair o int32 int32) fun r x => { r with x := x.1, y := x.2 }]

def reference : Layout Reference where
  title := "CellReference"
  blank := { id := "" }
  fields := [
    .needed "id" text fun r x => { r with id := x },
    .default "translation" coordinates fun r x => { r with position := x },
    .default "rotation" coordinates fun r x => { r with rotation := x },
    .default "scale" (fun _ => optional single) fun r x => { r with scale := x },
    .default "owner" textOrNull fun r x => { r with owner := x },
    .default "key" textOrNull fun r x => { r with key := x },
    .default "deleted" (fun _ => optional boolean) fun r x => { r with deleted := x }]

def cell : Layout Cell where
  title := "Cell"
  blank := {}
  fields := [
    .default "id" text fun r x => { r with id := x },
    .default "region" textOrNull fun r x => { r with region := x },
    .default "data" cellData.decode fun r x => { r with data := x },
    .default "references" (fun o => list (reference.decode o)) fun r x => { r with references := x }]

def pathGrid : Layout PathGrid where
  title := "PathGrid"
  blank := {}
  fields := [.default "cell" textOrNull fun r x => { r with cell := x }]

def dialogue : Layout Dialogue where
  title := "Dialogue"
  blank := { id := "" }
  fields := [
    .needed "id" text fun r x => { r with id := x },
    .default "dialogue_type" (fun o => variant o dialogueTypes) fun r x => { r with type := x }]

def infoData : Layout InfoData where
  title := "InfoData"
  blank := {}
  fields := [
    .default "disposition" (fun _ => int32) fun r x => { r with disposition := x },
    .default "dialogue_type" (fun o => optional (variant o dialogueTypes)) fun r x => { r with type := x }]

def info : Layout Info where
  title := "Info"
  blank := { id := "" }
  fields := [
    .needed "id" text fun r x => { r with id := x },
    .default "text" textOrNull fun r x => { r with text := x },
    (.default "result" textOrNull fun r x => { r with result := x } : Field Info).or ["script_text"],
    .default "data" infoData.decode fun r x => { r with data := x },
    .default "quest_state" (fun o => optional (variant o questStates)) fun r x => { r with questState := x }]

def script : Layout ScriptText where
  title := "Script"
  blank := { id := "" }
  fields := [
    .needed "id" text fun r x => { r with id := x },
    .default "text" text fun r x => { r with text := x }]

def startScript : Layout StartScript where
  title := "StartScript"
  blank := { id := "" }
  fields := [
    .needed "id" text fun r x => { r with id := x },
    .default "script" textOrNull fun r x => { r with script := x }]

def enchantment : Layout Enchantment where
  title := "Enchantment"
  blank := { id := "" }
  fields := [.needed "id" text fun r x => { r with id := x }]

/-- An entry of a levelled list: the id and its level. -/
def levelledEntry (o : Origin) (v : Value) : Result LevelledEntry :=
  (pair o string uint16 v).map fun (id, level) => ⟨id, level⟩

/-- An entry of an inventory: the count and the id. -/
def inventoryEntry (o : Origin) (v : Value) : Result InventoryEntry :=
  (pair o int32 string v).map fun (count, id) => ⟨count, id⟩

def levelledList : Layout LevelledList where
  title := "LevelledList"
  blank := { id := "" }
  fields := [
    .needed "id" text fun r x => { r with id := x },
    .default "list_flags" flags fun r x => { r with flags := x },
    (.default "entries" (fun o => list (levelledEntry o)) fun r x => { r with entries := x } :
      Field LevelledList).or ["creatures", "items"]]

def actorStats : Layout ActorStats where
  title := "ActorStats"
  blank := {}
  fields := [.default "health" healthOrNull fun r x => { r with health := x }]

def actorData : Layout ActorData where
  title := "ActorData"
  blank := {}
  fields := [
    .default "health" healthOrNull fun r x => { r with health := x },
    .default "stats" (fun o => optional (actorStats.decode o)) fun r x => { r with stats := x }]

def actor : Layout Actor where
  title := "Actor"
  blank := { id := "" }
  fields := [
    .needed "id" text fun r x => { r with id := x },
    .default "name" textOrNull fun r x => { r with name := x },
    .default "script" textOrNull fun r x => { r with script := x },
    .default "inventory" (fun o => list (inventoryEntry o)) fun r x => { r with inventory := x },
    .default "data" (fun o => optional (actorData.decode o)) fun r x => { r with data := x }]

def book : Layout Book where
  title := "Book"
  blank := { id := "" }
  fields := [
    .needed "id" text fun r x => { r with id := x },
    .default "name" textOrNull fun r x => { r with name := x },
    .default "script" textOrNull fun r x => { r with script := x },
    .default "enchanting" textOrNull fun r x => { r with enchanting := x },
    .default "text" textOrNull fun r x => { r with text := x }]

def object : Layout Object where
  title := "Object"
  blank := { id := "" }
  fields := [
    .needed "id" text fun r x => { r with id := x },
    .default "name" textOrNull fun r x => { r with name := x },
    .default "script" textOrNull fun r x => { r with script := x },
    .default "enchanting" textOrNull fun r x => { r with enchanting := x },
    .default "mesh" textOrNull fun r x => { r with mesh := x }]

/-- The payload of a record of any other kind: nothing of an object is read, and an array has to be empty. -/
def other : Layout Unit where
  title := "Other"
  blank := ()
  fields := []

/-! ## Records -/

/-- The payload of a record of a kind. -/
def ofKind (kind : Kind) (v : Value) : Result Record :=
  match kind with
  | .header => (header.decode .record v).map .header
  | .cell => (cell.decode .record v).map .cell
  | .pathGrid => (pathGrid.decode .record v).map .pathGrid
  | .dialogue => (dialogue.decode .record v).map .dialogue
  | .info => (info.decode .record v).map .info
  | .script => (script.decode .record v).map .script
  | .startScript => (startScript.decode .record v).map .startScript
  | .enchantment => (enchantment.decode .record v).map .enchantment
  | .levelled k => (levelledList.decode .record v).map (.levelled k)
  | .actor k => (actor.decode .record v).map (.actor k)
  | .book => (book.decode .record v).map .book
  | .object k => (object.decode .record v).map (.object k)
  | .other => (other.decode .record v).map fun _ => .other

/-- The kind that a value names. -/
def kind : Value → Result Kind
  | .string name => .ok (Kind.ofName name)
  | v => .error (.wrongType v .kindName)

/-- A record: an object with its kind as `type`, or an array with its kind as first element. -/
def record : Value → Result Record
  | .object fields =>
    match Catalog.get? "type" fields with
    | none => .error (.missingField "type")
    | some tag => do
      let k ← kind tag
      ofKind k (.object (fields.filter (·.1 != "type")))
  | .array [] => .error (.missingField "type")
  | .array (tag :: rest) => do
    let k ← kind tag
    ofKind k (.array rest)
  | v => .error (.wrongType v .record)

example : (record (.array [.string "Weather", .null])).toOption.isNone = true := by decide +kernel
example : (record (.object [("type", .string "Weather"), ("wind", .null)])).toOption.isSome = true := by decide +kernel

end Decode
end WorldAudit
