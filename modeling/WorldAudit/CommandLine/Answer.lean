import WorldAudit.CommandLine.Arguments
import WorldAudit.Rules.Standard
/-!
# Answer — what the command line gives back

The findings go to the output, one on a line, and the exit code is zero, as it is where the help or the version is asked
for.  Where a file cannot be loaded nothing is written and the code is one; where the arguments make no sense it is two.
-/
namespace WorldAudit
namespace CommandLine

structure Answer where
  exit : Nat
  output : String
deriving Repr, DecidableEq

def versionText : String := "recordlint 0.1.0\n"

/-- The help on the arguments, with what the environment sets for the mode. -/
def helpText (environment : Option String) : String :=
  String.join ([
    "Checks exported game-world record files for consistency, conventions and orphans",
    "",
    "Usage: recordlint [OPTIONS] <PATH>...",
    "",
    "Arguments:",
    "  <PATH>...  Record files (JSON arrays), listed in override order",
    "",
    "Options:",
    "      --mode <MODE>              Project whose conventions apply [env: RECORDLINT_MODE=" ++
      environment.getD "" ++ "] [possible values: " ++ String.intercalate ", " (Mode.all.map Mode.name) ++ "]",
    "      --min-inhabitants <N>      Report interior cells of the last file with fewer inhabitants than this",
    "      --duplicate-threshold <F>  Squared distance under which identical references count as duplicates " ++
      "[default: 0]",
    "      --names                    Report similar NPC names instead of running the standard checks",
    "  -v, --verbose...               Enable verbose output (use -vv for debug output)",
    "  -h, --help                     Print help",
    "  -V, --version                  Print version"].map (· ++ "\n"))

def reportText (findings : List Finding) : String := String.join (findings.map fun f => f.line ++ "\n")

/-- Checks the files of some texts. -/
def check (settings : Settings) (texts : List (String × Option String)) : Answer :=
  match RecordFile.loadAll texts with
  | .error _ => ⟨1, ""⟩
  | .ok files =>
    match (Run.standard settings files).outcome with
    | .error _ => ⟨1, ""⟩
    | .ok findings => ⟨0, reportText findings⟩

/-- The answer to a request, given the text of every path. -/
def Request.answer (text? : String → Option String) : Request → Answer
  | .help environment => ⟨0, helpText environment⟩
  | .version => ⟨0, versionText⟩
  | .refused => ⟨2, ""⟩
  | .audit o => check o.settings (o.paths.map fun path => (path, text? path))

/-- The paths that a request needs. -/
def Request.paths : Request → List String
  | .audit o => o.paths
  | _ => []

end CommandLine
end WorldAudit
