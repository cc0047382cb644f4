import WorldAudit.Markup.Event
import WorldAudit.Text.Blank
/-!
# Scan — reading markup character by character

The scanner walks over the text once.  Its mode says inside what it stands and holds what it has read of it, latest
character first.  A closing tag closes every element down to the nearest one of its name, so tags may interleave.
-/
namespace WorldAudit
namespace Markup

/-- The characters of a name, latest first, and the index of the first of them; zero while there is none. -/
structure Name where
  start : Nat
  chars : List Char
deriving Repr, DecidableEq

def Name.empty : Name := ⟨0, []⟩

def Name.push (name : Name) (index : Nat) (c : Char) : Name :=
  ⟨if name.chars.isEmpty then index else name.start, c :: name.chars⟩

/-- Characters collected latest first, as a text. -/
def collected (chars : List Char) : String := String.ofList chars.reverse

def Name.text (name : Name) : String := collected name.chars

/-- What a scan stands inside. -/
inductive Mode where
  | text (run : List Char)
  | openName (tag : Name)
  /-- Between the name of a tag and its end; `name` is the attribute begun. -/
  | attributes (tag : Name) (name : List Char)
  /-- After `=`; `quoted` once an opening quote has been read. -/
  | value (tag : Name) (name : List Char) (quoted : Bool) (value : List Char)
  | selfClosing (tag : Name)
  | closeName (tag : Name)
deriving Repr, DecidableEq

structure State where
  /-- The bytes read so far. -/
  index : Nat
  /-- The open elements, innermost first. -/
  stack : List String
  mode : Mode
deriving Repr, DecidableEq

def State.initial : State := ⟨0, [], .text []⟩

/-- What is left open when `tag` is closed; nothing if `tag` is not open. -/
def closeThrough (tag : String) : List String → Option (List String)
  | [] => none
  | top :: rest => if top = tag then some rest else closeThrough tag rest

/-- A text event, unless there is no text. -/
def textEvents (run : List Char) : List Event :=
  if run.isEmpty then [] else [.text (collected run)]

/-- An attribute event, unless no attribute has been begun. -/
def attributeEvents (name value : List Char) : List Event :=
  if name.isEmpty then [] else [.attribute (collected name) (collected value)]

/-- The elements open after a character, the mode it leads to, and the events it completes. -/
abbrev Move := List String × Mode × List Event

/-- What the character `c`, which stands at `i`, does in a mode. -/
def move (i : Nat) (stack : List String) (c : Char) : Mode → Except Fault Move
  | .text run =>
    if c = '<' then .ok (stack, .openName .empty, textEvents run)
    else .ok (stack, .text (c :: run), [])
  | .openName tag =>
    if c = '/' then
      if tag.chars.isEmpty then
        if stack.isEmpty then .error (.stray .slash i) else .ok (stack, .closeName tag, [])
      else .ok (stack, .selfClosing tag, [.opened tag.text])
    else if c = '<' then .error (.stray .less i)
    else if c = '>' then .ok (tag.text :: stack, .text [], [.opened tag.text])
    else if Text.isBlank c then .ok (stack, .attributes tag [], [.opened tag.text])
    else .ok (stack, .openName (tag.push i c), [])
  | .attributes tag name =>
    if c = '=' then
      if name.isEmpty then .error (.stray .equals i) else .ok (stack, .value tag name false [], [])
    else if c = '/' then .ok (stack, .selfClosing tag, attributeEvents name [])
    else if c = '>' then .ok (tag.text :: stack, .text [], attributeEvents name [])
    else if Text.isBlank c then .ok (stack, .attributes tag [], attributeEvents name [])
    else .ok (stack, .attributes tag (c :: name), [])
  | .value tag name true value =>
    if c = '"' then .ok (stack, .attributes tag [], [.attribute (collected name) (collected value)])
    else .ok (stack, .value tag name true (c :: value), [])
  | .value tag name false value =>
    if c = '"' then
      if value.isEmpty then .ok (stack, .value tag name true [], []) else .error (.stray .quote i)
    else if c = '/' then .ok (stack, .selfClosing tag, attributeEvents name value)
    else if c = '>' then .ok (tag.text :: stack, .text [], attributeEvents name value)
    else if Text.isBlank c then
      if value.isEmpty then .error (.stray .blank i)
      else .ok (stack, .attributes tag [], attributeEvents name value)
    else .ok (stack, .value tag name false (c :: value), [])
  | .selfClosing tag =>
    if c = '>' then .ok (stack, .text [], [.closed tag.text]) else .error (.tagEndExpected i)
  | .closeName tag =>
    if c = '>' then
      match closeThrough tag.text stack with
      | some rest => .ok (rest, .text [], [.closed tag.text])
      | none => .error (.mismatchedClose tag.text (stack.headD "") i)
    else .ok (stack, .closeName (tag.push i c), [])

/-- The events of a text up to its first fault. -/
structure Scan where
  events : List Event
  fault : Option Fault
deriving Repr, DecidableEq

/-- What the end of the text does in a mode. -/
def Mode.finish : Mode → Scan
  | .text run => ⟨textEvents run, none⟩
  | .closeName tag => ⟨[], some (.unfinishedClose tag.text tag.start)⟩
  | .openName tag | .attributes tag _ | .value tag _ _ _ | .selfClosing tag =>
    ⟨[], some (.unfinishedOpen tag.text tag.start)⟩

/-- Reads the rest of a text. -/
def State.scan (s : State) : List Char → Scan
  | [] => s.mode.finish
  | c :: cs =>
    match move s.index s.stack c s.mode with
    | .error fault => ⟨[], some fault⟩
    | .ok (stack, mode, events) =>
      let rest := scan ⟨s.index + c.utf8Size, stack, mode⟩ cs
      { rest with events := events ++ rest.events }

/-- Reads a text. -/
def scan (text : String) : Scan := State.initial.scan text.toList

end Markup
end WorldAudit
