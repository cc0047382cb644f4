import WorldAudit.Decode.Basic
/-!
# Layout — payloads by their fields

A payload is written as an object, whose fields may stand in any order, or as an array of its fields in their own
order.  The fields of an object are decoded in the order of their keys, and the first fault counts; a field that is
missing shows only after all others are good.  Keys that are no field are passed over.
-/
namespace WorldAudit
namespace Decode

open Json (Value Fields)

/-- A field of a payload, with its default already in place. -/
structure Field (α : Type) where
  name : String
  aliases : List String
  required : Bool
  set : Origin → Value → α → Result α

structure Layout (α : Type) where
  title : String
  /-- The payload with every field at its default. -/
  blank : α
  fields : List (Field α)

/-- A field that may be left out. -/
def Field.default {α β : Type} (name : String) (decode : Origin → Value → Result β) (put : α → β → α) : Field α :=
  ⟨name, [], false, fun o v a => (decode o v).map (put a)⟩

/-- A field that has to be there. -/
def Field.needed {α β : Type} (name : String) (decode : Origin → Value → Result β) (put : α → β → α) : Field α :=
  { Field.default name decode put with required := true }

/-- A field with further names. -/
def Field.or {α : Type} (field : Field α) (aliases : List String) : Field α := { field with aliases := aliases }

namespace Layout

variable {α : Type}

/-- The field that a key names. -/
def field? (l : Layout α) (key : String) : Option (Field α) :=
  l.fields.find? fun f => f.name == key || f.aliases.contains key

/-- Decodes the fields of an object in their order; `seen` holds the names of those decoded. -/
def visit (l : Layout α) (o : Origin) (a : α) (seen : List String) : Fields → Result (α × List String)
  | [] => .ok (a, seen)
  | (key, v) :: rest =>
    match l.field? key with
    | none => visit l o a seen rest
    | some f =>
      if seen.contains f.name then .error (.duplicateField f.name)
      else do
        let a ← f.set o v a
        visit l o a (f.name :: seen) rest

def ofObject (l : Layout α) (o : Origin) (object : Fields) : Result α := do
  let (a, seen) ← l.visit o l.blank [] object
  match l.fields.find? fun f => f.required && !seen.contains f.name with
  | some f => .error (.missingField f.name)
  | none => .ok a

/-- Decodes elements as the fields from number `i` on. -/
def place (l : Layout α) (o : Origin) (a : α) (i : Nat) : List (Field α) → List Value → Result α
  | [], [] => .ok a
  | [], v :: vs => .error (.wrongLength (i + (v :: vs).length) (o.upTo l.fields.length))
  | f :: fs, [] =>
    if f.required then .error (.wrongLength i (.payload l.title l.fields.length)) else place l o a (i + 1) fs []
  | f :: fs, v :: vs => do
    let a ← f.set o v a
    place l o a (i + 1) fs vs

def ofArray (l : Layout α) (o : Origin) (elements : List Value) : Result α := l.place o l.blank 0 l.fields elements

def decode (l : Layout α) (o : Origin) : Value → Result α
  | .object object => l.ofObject o object
  | .array elements => l.ofArray o elements
  | v => .error (.wrongType v (.payload l.title))

end Layout
end Decode
end WorldAudit
