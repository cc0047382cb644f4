import WorldAudit.CommandLine.Answer
/-!
# Main — the program

Reads the arguments, the environment and the files, and writes the answer.
-/
namespace WorldAudit
namespace CommandLine

/-- The text of a file, unless it cannot be read or is no UTF-8. -/
def readText? (path : String) : IO (Option String) := do
  try
    return String.fromUTF8? (← IO.FS.readBinFile path)
  catch _ =>
    return none

end CommandLine
end WorldAudit

open WorldAudit.CommandLine in
def main (arguments : List String) : IO UInt32 := do
  let request := request arguments (← IO.getEnv "RECORDLINT_MODE")
  let texts ← request.paths.mapM fun path => return (path, ← readText? path)
  let answer := request.answer fun path => (texts.lookup path).join
  IO.print answer.output
  (← IO.getStdout).flush
  return answer.exit.toUInt32
