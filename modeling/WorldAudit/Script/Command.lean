import WorldAudit.Text.Blank
import WorldAudit.Text.Digit
import WorldAudit.Text.Search
/-!
# Command — the commands of a script line that name other records

Four shapes of command are read off a line.  Words and arguments stand apart by separators, which are commas and white
space.  A command may be called on another object: whatever precedes an arrow `->` on the same line is passed over.
The shapes are tried in a fixed order, each at every place where the command may start, and the first that fits counts.
-/
namespace WorldAudit
namespace Script

/-- What a command does to another record. -/
inductive Command where
  /-- Runs the script. -/
  | start (script : String)
  /-- Places or hands out the object. -/
  | use (object : String)
  /-- Moves the journal topic to an index. -/
  | journal (topic : String) (index : Int)
deriving Repr, DecidableEq

def isSeparator (c : Char) : Bool := c == ',' || Text.isBlank c

def skipSeparators (cs : List Char) : List Char := cs.dropWhile isSeparator

/-- The text after at least one separator, all of them skipped. -/
def separated? : List Char → Option (List Char)
  | [] => none
  | c :: cs => if isSeparator c then some (skipSeparators cs) else none

/-- The ends of a text that follow an arrow on its first line. -/
def afterArrows : List Char → List (List Char)
  | [] => []
  | c :: cs =>
    if c = '\n' then []
    else match c, cs with
      | '-', '>' :: rest => rest :: afterArrows cs
      | _, _ => afterArrows cs

/-- The places where the command of a line may start. -/
def starts (line : List Char) : List (List Char) := (line :: afterArrows line).map skipSeparators

/-- The text after one of `words` and the separators behind it. -/
def arguments? (words : List (List Char)) (cs : List Char) : Option (List Char) :=
  words.findSome? fun word => (Text.after? word cs).bind separated?

def notQuote (c : Char) : Bool := c != '"'

def isBare (c : Char) : Bool := !isSeparator c

def isPlain (c : Char) : Bool := !isSeparator c && notQuote c

def unquoted (cs : List Char) : String := String.ofList (cs.filter notQuote)

/-- A text in closed quotes that is not empty, and what follows it. -/
def closedQuote? : List Char → Option (List Char × List Char)
  | '"' :: cs =>
    match cs.takeWhile notQuote, cs.dropWhile notQuote with
    | [], _ => none
    | _, [] => none
    | body, _ :: rest => some (body, rest)
  | _ => none

/-- The run of characters up to a separator, and what follows it. -/
def bareWord? (cs : List Char) : Option (List Char × List Char) :=
  match cs.takeWhile isBare with
  | [] => none
  | word => some (word, cs.dropWhile isBare)

/-- The ways to read an argument: in closed quotes, or as it stands up to a separator. -/
def readings (cs : List Char) : List (List Char × List Char) :=
  (closedQuote? cs).toList ++ (bareWord? cs).toList

/-! ## The four shapes -/

def startWords : List (List Char) := ["startscript".toList]

/-- `startscript` takes one argument and nothing else. -/
def start? (cs : List Char) : Option Command := do
  let rest ← arguments? startWords cs
  let (script, _) ← (readings rest).find? fun r => r.2.all isSeparator
  return .start (unquoted script)

def placementWords : List (List Char) :=
  ["placeatme", "addsoulgem", "additem", "equip", "drop", "placeatpc", "placeitemcell", "placeitem"].map String.toList

/-- A placement takes the object first; its quotes need not be closed, and anything may follow. -/
def placement? (cs : List Char) : Option Command := do
  match ← arguments? placementWords cs with
  | '"' :: rest =>
    match rest.takeWhile notQuote with
    | [] => none
    | object => some (.use (String.ofList object))
  | rest =>
    match rest.takeWhile isPlain, rest.dropWhile isPlain with
    | [], _ => none
    | object, [] => some (.use (String.ofList object))
    | object, c :: _ => if isSeparator c then some (.use (String.ofList object)) else none

def journalWords : List (List Char) := ["journal", "setjournalindex"].map String.toList

/-- The digits of an index after at least one separator. -/
def indexDigits? (cs : List Char) : Option (List Char) := do
  match (← separated? cs).takeWhile Text.isDigit with
  | [] => none
  | digits => some digits

/-- The longest part of a quoted text, not empty, that a separator and a digit follow inside the quotes. -/
def splitQuote? : List Char → Option (List Char × List Char)
  | [] => none
  | c :: cs =>
    match splitQuote? cs with
    | some (topic, digits) => some (c :: topic, digits)
    | none => (indexDigits? cs).map fun digits => ([c], digits)

/-- The topic and the digits of its index. -/
def topicAndIndex? : List Char → Option (List Char × List Char)
  | '"' :: rest =>
    let body := rest.takeWhile notQuote
    let closed := match body, rest.dropWhile notQuote with
      | [], _ => none
      | _, after => (indexDigits? (after.drop 1)).map fun digits => (body, digits)
    closed <|> splitQuote? body
  | cs =>
    match cs.takeWhile isPlain with
    | [] => none
    | topic => (indexDigits? (cs.dropWhile isPlain)).map fun digits => (topic, digits)

/-- The greatest index a journal can hold. -/
def maxIndex : Nat := 2147483647

/-- The number that ASCII digits write, unless it is too great for an index. -/
def readIndex? (digits : List Char) : Option Int :=
  if digits.all Char.isDigit then
    let n := digits.foldl (fun n d => 10 * n + (d.toNat - '0'.toNat)) 0
    if n ≤ maxIndex then some n else none
  else none

/-- A journal command takes a topic and an index.  One whose index cannot be read is still a journal command, though it
names nothing. -/
def journal? (cs : List Char) : Option (Option Command) := do
  let rest ← arguments? journalWords cs
  let (topic, digits) ← topicAndIndex? rest
  return (readIndex? digits).map fun index => .journal (String.ofList topic) index

def levelledWords : List (List Char) := ["addtolevcreature", "addtolevitem"].map String.toList

/-- An addition to a levelled list takes the list and the entry, and names the entry. -/
def addition? (cs : List Char) : Option Command := do
  let rest ← arguments? levelledWords cs
  (readings rest).findSome? fun (_, afterList) => do
    let entries ← separated? afterList
    let (entry, _) ← (readings entries).find? fun r => r.2.isEmpty || (separated? r.2).isSome
    return .use (unquoted entry)

/-- The command of a line of code. -/
def command? (code : String) : Option Command :=
  let places := starts code.toList
  places.findSome? start? <|> places.findSome? placement? <|>
    match places.findSome? journal? with
    | some command => command
    | none => places.findSome? addition?

end Script
end WorldAudit
