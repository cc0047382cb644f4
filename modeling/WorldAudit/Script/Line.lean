import WorldAudit.Text.Blank
import WorldAudit.Text.Lower
/-!
# Line — script bodies as lines of code and comment

A script is read line by line.  The first semicolon of a line ends its code and starts its comment; code is compared
without regard to case, so it is kept in lower case.
-/
namespace WorldAudit
namespace Script

/-- A line of a script that says anything. -/
structure Line where
  /-- What stands before the first semicolon, trimmed, in lower case. -/
  code : String
  /-- What stands after the first semicolon, trimmed. -/
  comment : String
deriving Repr, DecidableEq

/-- The pieces of a text between its line feeds. -/
def splitLines : List Char → List (List Char)
  | [] => [[]]
  | c :: cs =>
    if c = '\n' then [] :: splitLines cs
    else match splitLines cs with
      | [] => [[c]]
      | line :: lines => (c :: line) :: lines

def notSemicolon (c : Char) : Bool := c != ';'

/-- The code of a line, as it is written. -/
def codePart (line : List Char) : List Char := line.takeWhile notSemicolon

/-- The comment of a line, as it is written; empty without a semicolon. -/
def commentPart (line : List Char) : List Char := (line.dropWhile notSemicolon).drop 1

/-- The line with both parts trimmed, unless both are empty. -/
def Line.ofChars? (line : List Char) : Option Line :=
  let code := Text.lowerChars (Text.trim (codePart line))
  let comment := Text.trim (commentPart line)
  if code.isEmpty && comment.isEmpty then none else some ⟨String.ofList code, String.ofList comment⟩

/-- The lines of a script. -/
def lines (body : String) : List Line :=
  (splitLines (Text.trim body.toList)).filterMap Line.ofChars?

theorem splitLines_ne_nil (cs : List Char) : splitLines cs ≠ [] := by
  cases cs with
  | nil => simp [splitLines]
  | cons c cs =>
    unfold splitLines
    split
    · simp
    · split <;> simp

end Script
end WorldAudit
