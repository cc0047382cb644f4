import WorldAudit.Record.Basic
/-!
# Finding — what a rule has to say
-/
namespace WorldAudit

structure Finding where
  kind : String
  subject : String
  message : String
deriving Repr, DecidableEq

/-- A finding as a line of output. -/
def Finding.line (f : Finding) : String := f.kind ++ " " ++ f.subject ++ " " ++ f.message

/-- A finding about a record. -/
def Finding.about (record : Record) (message : String) : Finding := ⟨record.kind.name, record.subject, message⟩

end WorldAudit
