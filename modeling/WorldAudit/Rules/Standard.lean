import WorldAudit.Audit.Run
import WorldAudit.Rules.Books
import WorldAudit.Rules.Duplicates
import WorldAudit.Rules.LevelledLists
import WorldAudit.Rules.Population
import WorldAudit.Rules.Reachability
import WorldAudit.Rules.SimilarNames
import WorldAudit.Rules.Typography
import WorldAudit.Rules.WorkNotes
/-!
# Standard — the rules of an ordinary run
-/
namespace WorldAudit
namespace Rules

/-- The rules that settings ask for, in the order in which they are called. -/
def standard (settings : Settings) : List Rule :=
  if settings.similarNames then [similarNames]
  else
    [books, workNotes, typography, duplicates settings.duplicateThreshold, levelledLists] ++
    (settings.minInhabitants.map populated).toList ++ [reachability]

end Rules

/-- Checks files with the standard rules. -/
def Run.standard (settings : Settings) (files : List RecordFile) : Run :=
  Run.of settings (Rules.standard settings) files

end WorldAudit
