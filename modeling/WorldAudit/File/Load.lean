import WorldAudit.Decode.Record
import WorldAudit.File.Path
import WorldAudit.File.Shape
import WorldAudit.Json.Read
/-!
# Load — record files from their texts

A file is read in three stages: its text is JSON, the value has the shape of a record file, and every element decodes.
Files are loaded in the order in which they override one another, and the first fault counts.
-/
namespace WorldAudit

/-- The records of a file, in their order. -/
structure RecordFile where
  path : String
  records : List Record
deriving DecidableEq

inductive LoadFault where
  | noInput
  | unreadable (path : String)
  | notJson (path content : String) (fault : Json.Fault)
  | misshapen (path : String) (fault : Shape.Fault)
  /-- An element does not decode; `kind` is its type as it is written. -/
  | undecodable (path : String) (index : Nat) (kind : String) (fault : Decode.Fault)

def LoadFault.message : LoadFault → String
  | .noInput => "No record files given"
  | .unreadable path => s!"Failed to read {path}"
  | .notJson path _ _ => s!"Invalid JSON in {path}"
  | .misshapen path fault => s!"{path} is not a record file: {fault.message} (at '{fault.pointer}')"
  | .undecodable path index kind _ => s!"Record {index} ({kind}) in {path} could not be decoded"

/-- The text that a fault is shown in, with its name: the path of the file as seen from the folder at hand. -/
def LoadFault.source? (folder : String) : LoadFault → Option (String × String)
  | .notJson path content _ => some (Path.seenFrom folder path, content)
  | _ => none

namespace RecordFile

/-- The type of an element, as it is written. -/
def typeName (v : Json.Value) : String := ((v.get? "type").bind Json.Value.asString?).getD ""

/-- Decodes the elements from number `i` on. -/
def decodeFrom (path : String) (i : Nat) : List Json.Value → Except LoadFault (List Record)
  | [] => .ok []
  | v :: vs =>
    match Decode.record v with
    | .error fault => .error (.undecodable path i (typeName v) fault)
    | .ok record => (decodeFrom path (i + 1) vs).map (record :: ·)

/-- The records of an array; of any other value none. -/
def ofValue (path : String) : Json.Value → Except LoadFault (List Record)
  | .array elements => decodeFrom path 0 elements
  | _ => .ok []

/-- The records that the text of a file holds. -/
def parseRecords (path content : String) : Except LoadFault (List Record) :=
  match Json.read content with
  | .error fault => .error (.notJson path content fault)
  | .ok value =>
    match Shape.fault? value with
    | some fault => .error (.misshapen path fault)
    | none => ofValue path value

def parse (path content : String) : Except LoadFault RecordFile :=
  (parseRecords path content).map fun records => ⟨path, records⟩

/-- A file whose text could be read, or could not. -/
def load (path : String) : Option String → Except LoadFault RecordFile
  | none => .error (.unreadable path)
  | some content => parse path content

def loadEach : List (String × Option String) → Except LoadFault (List RecordFile)
  | [] => .ok []
  | (path, content) :: rest => do
    let file ← load path content
    let files ← loadEach rest
    return file :: files

/-- All files, or the first fault. -/
def loadAll (texts : List (String × Option String)) : Except LoadFault (List RecordFile) :=
  if texts.isEmpty then .error .noInput else loadEach texts

end RecordFile
end WorldAudit
