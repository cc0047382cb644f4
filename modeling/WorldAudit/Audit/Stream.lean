import WorldAudit.Audit.Call
import WorldAudit.File.Load
import WorldAudit.Text.Lower
/-!
# Stream — the calls that files give rise to

The calls of one record form a group.  The groups follow one another in the order of the files and of the records in
them, and a last group tells of the end.
-/
namespace WorldAudit

/-- The calls of one record, or of the end. -/
structure Group where
  context : Context
  /-- The record; none at the end. -/
  record : Option Record
  calls : List Call

namespace Stream

/-- The latest topic once a record has been read. -/
def topicAfter (topic : Option Dialogue) : Record → Option Dialogue
  | .dialogue d => some d
  | _ => topic

/-- The calls for what a record holds, each with its place in the whole list. -/
def entryCalls : Record → List Call
  | .cell cell => cell.references.mapIdx fun i r => .reference cell r (Text.lower r.id) i
  | .levelled k list => list.entries.mapIdx fun i e => .levelledEntry (.levelled k list) e (Text.lower e.id) i
  | .actor k actor => actor.inventory.mapIdx fun i e => .inventoryEntry (.actor k actor) e (Text.lower e.id) i
  | _ => []

def infoCalls (topic : Option Dialogue) : Record → List Call
  | .info info => [.info info topic]
  | _ => []

/-- The calls for the lines of a script, or of the result of a response. -/
def lineCalls (topic : Option Dialogue) : Record → List Call
  | .info info => (Script.lines (info.result.getD "")).map fun line => .scriptLine (.info info) line topic
  | .script script => (Script.lines script.text).map fun line => .scriptLine (.script script) line none
  | _ => []

/-- All calls of a record, `topic` being the latest one of its file. -/
def recordCalls (topic : Option Dialogue) (record : Record) : List Call :=
  .record record (Text.lower record.id) :: (entryCalls record ++ infoCalls topic record ++ lineCalls topic record)

/-- The groups of the records of a file after the topic given. -/
def recordGroups (ctx : Context) (topic : Option Dialogue) : List Record → List Group
  | [] => []
  | record :: records =>
    let topic := topicAfter topic record
    ⟨ctx, some record, recordCalls topic record⟩ :: recordGroups ctx topic records

/-- The groups of files, of which the last one is known as such. -/
def fileGroups (settings : Settings) : List RecordFile → List Group
  | [] => []
  | file :: files => recordGroups ⟨settings, file.path, files.isEmpty⟩ none file.records ++ fileGroups settings files

/-- The group of the end. -/
def lastGroup (settings : Settings) (files : List RecordFile) : Group :=
  ⟨⟨settings, (files.getLast?.map (·.path)).getD "", true⟩, none, [.finish]⟩

/-- Everything that a rule is told of files. -/
def groups (settings : Settings) (files : List RecordFile) : List Group :=
  fileGroups settings files ++ [lastGroup settings files]

end Stream
end WorldAudit
