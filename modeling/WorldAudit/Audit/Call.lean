import WorldAudit.Audit.Settings
import WorldAudit.Record.Basic
import WorldAudit.Script.Line
/-!
# Call — what a rule is told

A rule is told of a record, then of the entries inside it, then of a response, then of its script lines, and once of
the end.  Ids are given beside the records in lower case, the form in which they are compared.
-/
namespace WorldAudit

inductive Call where
  | record (record : Record) (id : String)
  | reference (cell : Cell) (reference : Reference) (id : String) (index : Nat)
  | levelledEntry (owner : Record) (entry : LevelledEntry) (id : String) (index : Nat)
  | inventoryEntry (owner : Record) (entry : InventoryEntry) (id : String) (index : Nat)
  /-- A response or journal entry, with the topic it belongs to. -/
  | info (info : Info) (topic : Option Dialogue)
  /-- A line of a script; a topic is given with the lines of a response. -/
  | scriptLine (owner : Record) (line : Script.Line) (topic : Option Dialogue)
  | finish

/-- The name of a call, for messages. -/
def Call.name : Call → String
  | .record .. => "on_record"
  | .reference .. => "on_cell_ref"
  | .levelledEntry .. => "on_levelled_entry"
  | .inventoryEntry .. => "on_inventory_entry"
  | .info .. => "on_info"
  | .scriptLine .. => "on_script_line"
  | .finish => "on_end"

/-- What a rule may know of the run when it is called. -/
structure Context where
  settings : Settings
  /-- The file that is being read; at the end the last one. -/
  file : String
  /-- Whether no file overrides this one. -/
  isLast : Bool

def Context.mode (ctx : Context) : Option Mode := ctx.settings.mode

end WorldAudit
