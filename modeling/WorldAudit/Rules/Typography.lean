import WorldAudit.Rules.WorkNotes
import WorldAudit.Text.Search
/-!
# Typography — how the text of dialogue is set
-/
namespace WorldAudit
namespace Rules

/-- Whether a response may go without text: journal entries and voices may. -/
def mayBeSilent : DialogueType → Bool
  | .journal | .voice => true
  | _ => false

/-- The type of a response: its own, or else that of its topic. -/
def typeOf (info : Info) (topic : Option Dialogue) : DialogueType :=
  (info.data.type <|> topic.map (·.type)).getD .topic

def typographyMessages (text : List Char) : List String :=
  (if Text.hasDoubleSpace text then ["contains double spaces"] else []) ++
  (if Text.occurs " - ".toList text then ["contains a single hyphen"] else []) ++
  (if Text.occurs "....".toList text then ["contains an overlong ellipsis"] else [])

def infoMessages (info : Info) (topic : Option Dialogue) : List String :=
  let text := info.text.getD ""
  if text.isEmpty then (if mayBeSilent (typeOf info topic) then [] else ["has no text"])
  else typographyMessages text.toList

def typography : Rule := .stateless "dialogue" fun _ call =>
  match call with
  | .info info topic => ((infoMessages info topic).map fun m => ⟨"Info", infoSubject info topic, m⟩, none)
  | _ => ([], none)

end Rules
end WorldAudit
