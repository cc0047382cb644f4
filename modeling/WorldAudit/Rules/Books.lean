import WorldAudit.Audit.Rule
import WorldAudit.Markup.Scan
import WorldAudit.Text.Lower
import WorldAudit.Text.Search
/-!
# Books — book text against what the renderer of books can show

The renderer knows a few tags, takes no path as the source of an image, and leaves out text that stands after the last
tag.  A book whose text is not markup at all is reported for that alone.
-/
namespace WorldAudit
namespace Rules

open Markup (Event)

/-- A book while its events are read. -/
structure BookReading where
  problems : List String
  /-- Whether the tag opened last is an image. -/
  inImage : Bool
  /-- The text after the tag opened last, trimmed. -/
  invisible : String
deriving Repr, DecidableEq

namespace BookReading

def start : BookReading := ⟨[], false, ""⟩

def knows (tag : String) : Bool := Markup.isBookTag (String.ofList (tag.toList.map Char.toLower))

def addIf (b : BookReading) (condition : Bool) (problem : String) : BookReading :=
  if condition then { b with problems := b.problems ++ [problem] } else b

def read (b : BookReading) : Event → BookReading
  | .opened tag =>
    { b.addIf (!knows tag) s!"contains invalid HTML opening tag <{tag}>" with
      invisible := "", inImage := Text.equalFold tag "img" }
  | .attribute name value =>
    b.addIf (b.inImage && Text.equalFold name "src" && value.toList.contains '/') s!"contains invalid IMG SRC {value}"
  | .text content => { b with invisible := String.ofList (Text.trim content.toList) }
  | .closed tag =>
    { b.addIf (!knows tag) s!"contains invalid HTML closing tag </{tag}>" with inImage := false }

/-- All that is wrong with a book, the text that cannot be seen last. -/
def messages (b : BookReading) : List String :=
  b.problems ++ if b.invisible.isEmpty then [] else [s!"contains invisible text {b.invisible}"]

end BookReading

/-- What there is to say about the text of a book. -/
def bookMessages (text : String) : Except Markup.Fault (List String) :=
  let scan := Markup.scan text
  match scan.fault with
  | some fault => .error fault
  | none => .ok (scan.events.foldl BookReading.read .start).messages

def books : Rule := .stateless "markup" fun _ call =>
  match call with
  | .record (.book book) _ =>
    let text := book.text.getD ""
    if text.isEmpty then ([], none)
    else match bookMessages text with
      | .error fault => ([], some (.markup fault))
      | .ok messages => (messages.map (Finding.about (.book book)), none)
  | _ => ([], none)

end Rules
end WorldAudit
