import WorldAudit.Text.Search
/-!
# WorkNote — comments that mark unfinished work
-/
namespace WorldAudit
namespace Script

/-- The openings of a note on work to be done. -/
def noteOpenings : List (List Char) :=
  ["todo", "fixme", "fillmein", "to do", "fix me", "fill me in"].map String.toList

/-- Whether a word that starts with "merge" stands at the start of the text or after white space; `fresh` says that
this is so for its first character. -/
def asksForMerge (fresh : Bool) : List Char → Bool
  | [] => false
  | c :: cs => (fresh && Text.startsWith "merge".toList (c :: cs)) || asksForMerge (Text.isBlank c) cs

/-- Whether a comment opens as a note on work to be done or asks for a merge, in any letter case. -/
def isWorkNote (comment : List Char) : Bool :=
  let folded := comment.map Char.toLower
  noteOpenings.any (Text.startsWith · folded) || asksForMerge true folded

example : isWorkNote "Fill me in later".toList = true := by decide +kernel
example : isWorkNote "emerge from water".toList = false := by decide +kernel

end Script
end WorldAudit
