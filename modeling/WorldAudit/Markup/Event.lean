/-!
# Event — what book markup consists of

Book text is a flat stream of tags and text.  Reading it delivers events in the order of the text, and stops at the
first fault.
-/
namespace WorldAudit
namespace Markup

inductive Event where
  | opened (tag : String)
  /-- An attribute of the tag opened last. -/
  | attribute (name value : String)
  | text (content : String)
  | closed (tag : String)
deriving Repr, DecidableEq

/-- A character that may not stand where it was found. -/
inductive Stray where
  | slash
  | less
  | equals
  | quote
  | blank
deriving Repr, DecidableEq

def Stray.text : Stray → String
  | .slash => "/"
  | .less => "<"
  | .equals => "="
  | .quote => "\""
  | .blank => "space"

/-- Why a text is not markup, with the byte index at which that shows. -/
inductive Fault where
  | stray (found : Stray) (index : Nat)
  /-- A slash inside a tag is followed by something else than the end of the tag. -/
  | tagEndExpected (index : Nat)
  /-- A closing tag names no open element; `expected` is the innermost one. -/
  | mismatchedClose (tag expected : String) (index : Nat)
  | unfinishedOpen (tag : String) (index : Nat)
  | unfinishedClose (tag : String) (index : Nat)
deriving Repr, DecidableEq

def Fault.index : Fault → Nat
  | .stray _ i | .tagEndExpected i | .mismatchedClose _ _ i | .unfinishedOpen _ i | .unfinishedClose _ i => i

def Fault.message : Fault → String
  | .stray found i => s!"Unexpected {found.text} at index {i}"
  | .tagEndExpected i => s!"Expected > at index {i}"
  | .mismatchedClose tag expected i => s!"Unexpected </{tag}> expected </{expected}> at index {i}"
  | .unfinishedOpen tag i => s!"Unfinished opening tag <{tag} at index {i}"
  | .unfinishedClose tag i => s!"Unfinished closing tag </{tag} at index {i}"

/-- The tags that the renderer of books understands, in lower case. -/
def bookTags : List String := ["div", "font", "br", "p", "img", "b"]

def isBookTag (tag : String) : Bool := bookTags.contains tag

end Markup
end WorldAudit
