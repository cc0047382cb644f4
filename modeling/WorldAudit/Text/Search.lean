import WorldAudit.Text.Blank
/-!
# Search — fixed texts and runs of spaces inside a text
-/
namespace WorldAudit
namespace Text

/-- What follows `word` at the head of a text. -/
def after? : List Char → List Char → Option (List Char)
  | [], cs => some cs
  | _ :: _, [] => none
  | w :: word, c :: cs => if w = c then after? word cs else none

def startsWith (word cs : List Char) : Bool := (after? word cs).isSome

/-- Whether `word` stands anywhere in a text. -/
def occurs (word : List Char) : List Char → Bool
  | [] => word.isEmpty
  | c :: cs => startsWith word (c :: cs) || occurs word cs

/-- White space that does not end a line. -/
def isSpace (c : Char) : Bool := isBlank c && c != '\r' && c != '\n'

/-- Whether two spaces follow one another; `after` says that the character before the text is a space. -/
def doubleSpaceFrom (after : Bool) : List Char → Bool
  | [] => false
  | c :: cs => (after && isSpace c) || doubleSpaceFrom (isSpace c) cs

def hasDoubleSpace (cs : List Char) : Bool := doubleSpaceFrom false cs

theorem after?_eq_some_iff {word cs rest : List Char} : after? word cs = some rest ↔ cs = word ++ rest := by
  induction word generalizing cs with
  | nil => simp [after?]
  | cons w word ih =>
    cases cs with
    | nil => simp [after?]
    | cons c cs =>
      by_cases h : w = c
      · simp [after?, h, ih]
      · simp [after?, h, Ne.symm h]

end Text
end WorldAudit
