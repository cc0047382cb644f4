import Mathlib.Data.List.Chain
import WorldAudit.Markup.Event
import WorldAudit.Text.Blank
/-!
# Grammar — what book markup is

A document is text with tags in it.  Its characters, its events and what its tags leave open are read off its parts,
part by part, and no part knows of a scanner.  A document is well formed when its parts are, and when every closing tag
names an element that is open where it stands.
-/
namespace WorldAudit
namespace Markup

/-! ## Characters -/

/-- Characters of the name of a tag that opens. -/
def inTagName (c : Char) : Bool := c != '<' && c != '/' && c != '>' && !Text.isBlank c

/-- Characters of the name of an attribute. -/
def inName (c : Char) : Bool := c != '=' && c != '/' && c != '>' && !Text.isBlank c

/-- Characters of a value without quotes. -/
def inBare (c : Char) : Bool := c != '"' && c != '/' && c != '>' && !Text.isBlank c

/-! ## Attributes -/

/-- What stands between the name of a tag and its end. -/
inductive Item where
  | blank (c : Char)
  /-- An attribute without a value. -/
  | flag (name : List Char)
  | quoted (name value : List Char)
  | bare (name value : List Char)
deriving Repr, DecidableEq

namespace Item

def chars : Item → List Char
  | blank c => [c]
  | flag name => name
  | quoted name value => name ++ '=' :: '"' :: value ++ ['"']
  | bare name value => name ++ '=' :: value

def events : Item → List Event
  | blank _ => []
  | flag name => [.attribute (String.ofList name) ""]
  | quoted name value | bare name value => [.attribute (String.ofList name) (String.ofList value)]

def WellFormed : Item → Prop
  | blank c => Text.isBlank c = true
  | flag name => name ≠ [] ∧ ∀ c ∈ name, inName c = true
  | quoted name value => (name ≠ [] ∧ ∀ c ∈ name, inName c = true) ∧ ∀ c ∈ value, (c != '"') = true
  | bare name value => (name ≠ [] ∧ ∀ c ∈ name, inName c = true) ∧ ∀ c ∈ value, inBare c = true

def isBlank : Item → Bool
  | blank _ => true
  | _ => false

/-- Whether anything may stand directly after an item. -/
def isEnded : Item → Bool
  | blank _ | quoted _ _ => true
  | flag _ | bare _ _ => false

/-- Whether an item may be followed by white space.  A value without quotes that is empty may not. -/
def mayEnd : Item → Bool
  | bare _ value => !value.isEmpty
  | _ => true

/-- **What may stand between two attributes**: one that is not ended is ended by white space. -/
def Precedes (item next : Item) : Prop := item.isEnded = true ∨ (next.isBlank = true ∧ item.mayEnd = true)

end Item

def itemChars (items : List Item) : List Char := items.flatMap Item.chars

def itemEvents (items : List Item) : List Event := items.flatMap Item.events

/-- The items of a tag: if there are any, white space comes first. -/
structure WellLaid (items : List Item) : Prop where
  each : ∀ item ∈ items, item.WellFormed
  apart : items.IsChain Item.Precedes
  led : ∀ item ∈ items.head?, item.isBlank = true

/-! ## Tags -/

inductive Tag where
  | opening (name : List Char) (items : List Item)
  | selfClosing (name : List Char) (items : List Item)
  | closing (name : List Char)
deriving Repr, DecidableEq

namespace Tag

def chars : Tag → List Char
  | opening name items => '<' :: name ++ itemChars items ++ ['>']
  | selfClosing name items => '<' :: name ++ itemChars items ++ ['/', '>']
  | closing name => '<' :: '/' :: name ++ ['>']

def events : Tag → List Event
  | opening name items => .opened (String.ofList name) :: itemEvents items
  | selfClosing name items => .opened (String.ofList name) :: itemEvents items ++ [.closed (String.ofList name)]
  | closing name => [.closed (String.ofList name)]

/-- A tag that closes itself has a name or an item, since it would open a closing tag otherwise. -/
def WellFormed : Tag → Prop
  | opening name items => (∀ c ∈ name, inTagName c = true) ∧ WellLaid items
  | selfClosing name items => (∀ c ∈ name, inTagName c = true) ∧ WellLaid items ∧ (name ≠ [] ∨ items ≠ [])
  | closing name => ∀ c ∈ name, (c != '>') = true

/-- The open elements after a tag, innermost first; none if it closes what is not open. -/
def opensAfter (stack : List String) : Tag → Option (List String)
  | opening name _ => some (String.ofList name :: stack)
  | selfClosing _ _ => some stack
  | closing name =>
    if String.ofList name ∈ stack then some (stack.dropWhile (· != String.ofList name)).tail else none

end Tag

/-! ## Documents -/

/-- Tags, each with the text before it, and the text after the last one. -/
structure Document where
  parts : List (List Char × Tag)
  rest : List Char
deriving Repr, DecidableEq

def plainEvents (text : List Char) : List Event := if text = [] then [] else [.text (String.ofList text)]

namespace Document

def chars (d : Document) : List Char := d.parts.flatMap (fun p => p.1 ++ p.2.chars) ++ d.rest

def events (d : Document) : List Event := d.parts.flatMap (fun p => plainEvents p.1 ++ p.2.events) ++ plainEvents d.rest

/-- **A document that may follow where some elements are open.** -/
structure WellFormed (stack : List String) (d : Document) : Prop where
  texts : ∀ p ∈ d.parts, ∀ c ∈ p.1, (c != '<') = true
  tags : ∀ p ∈ d.parts, p.2.WellFormed
  closes : ((d.parts.map Prod.snd).foldlM Tag.opensAfter stack).isSome = true
  rest : ∀ c ∈ d.rest, (c != '<') = true

def cons (text : List Char) (tag : Tag) (d : Document) : Document := ⟨(text, tag) :: d.parts, d.rest⟩

theorem chars_cons (text : List Char) (tag : Tag) (d : Document) :
    (cons text tag d).chars = text ++ (tag.chars ++ d.chars) := by
  rw [chars, cons, List.flatMap_cons, List.append_assoc, List.append_assoc]
  rfl

theorem events_cons (text : List Char) (tag : Tag) (d : Document) :
    (cons text tag d).events = plainEvents text ++ (tag.events ++ d.events) := by
  rw [events, cons, List.flatMap_cons, List.append_assoc, List.append_assoc]
  rfl

/-- A document with a tag in front is well formed where the tag may stand, if the rest is after the tag. -/
theorem wellFormed_cons {stack : List String} {text : List Char} {tag : Tag} {d : Document} :
    (cons text tag d).WellFormed stack ↔
      (∀ c ∈ text, (c != '<') = true) ∧ tag.WellFormed ∧
        ∃ stack', tag.opensAfter stack = some stack' ∧ d.WellFormed stack' := by
  constructor
  · intro h
    have hcloses := h.closes
    rw [cons, List.map_cons, List.foldlM_cons] at hcloses
    cases ho : tag.opensAfter stack with
    | none => rw [ho] at hcloses; cases hcloses
    | some stack' =>
      rw [ho] at hcloses
      exact ⟨h.texts _ List.mem_cons_self, h.tags _ List.mem_cons_self, stack', rfl,
        fun p hp => h.texts p (List.mem_cons_of_mem _ hp), fun p hp => h.tags p (List.mem_cons_of_mem _ hp), hcloses,
        h.rest⟩
  · rintro ⟨htext, htag, stack', ho, h⟩
    refine ⟨fun p hp => ?_, fun p hp => ?_, ?_, h.rest⟩
    · rcases List.mem_cons.1 hp with rfl | hp
      · exact htext
      · exact h.texts p hp
    · rcases List.mem_cons.1 hp with rfl | hp
      · exact htag
      · exact h.tags p hp
    · rw [cons, List.map_cons, List.foldlM_cons, ho]
      exact h.closes

end Document

end Markup
end WorldAudit
