import WorldAudit.Audit.Rule
import WorldAudit.Script.WorkNote
/-!
# WorkNotes — script comments left behind as notes on work to be done
-/
namespace WorldAudit
namespace Rules

/-- A response, named by the topic it belongs to. -/
def infoSubject (info : Info) (topic : Option Dialogue) : String :=
  match topic with
  | some topic => s!"{info.id} in topic {topic.id}"
  | none => info.id

/-- A finding about the script of a record. -/
def aboutScript (owner : Record) (topic : Option Dialogue) (message : String) : Finding :=
  match owner, topic with
  | .info info, some topic => ⟨"Info", infoSubject info (some topic), message⟩
  | owner, _ => .about owner message

def workNotes : Rule := .stateless "comments" fun _ call =>
  match call with
  | .scriptLine owner line topic =>
    if line.comment.isEmpty || !Script.isWorkNote line.comment.toList then ([], none)
    else ([aboutScript owner topic s!"contains comment {line.comment}"], none)
  | _ => ([], none)

end Rules
end WorldAudit
