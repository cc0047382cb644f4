import WorldAudit.File.Path
/-!
# Folder — files held in memory
-/
namespace WorldAudit

/-- Files by their path inside the folder, in the order in which they were put there.  A file replaces an earlier one
that lies in the same place, however its path is written. -/
structure Folder where
  files : List (String × ByteArray)

namespace Folder

def empty : Folder := ⟨[]⟩

/-- The paths of all files as their steps, the file put last first. -/
def steps (folder : Folder) : List (List (List Char) × ByteArray) :=
  folder.files.reverse.map fun (name, bytes) => ((Path.pieces name.toList).filter (!Path.isIdle ·), bytes)

/-- Follows the pieces of a path from the folder at `here`.  Only folders can be entered, and a file ends its path. -/
def follow (all : List (List (List Char) × ByteArray)) (here : List (List Char)) :
    List (List Char) → Option ByteArray
  | [] => none
  | piece :: rest =>
    if Path.isIdle piece then follow all here rest
    else if piece = ['.', '.'] then if here.isEmpty then none else follow all here.dropLast rest
    else
      let there := here ++ [piece]
      match all.find? (·.1 == there) with
      | some (_, bytes) => if rest.isEmpty then some bytes else none
      | none => if all.any fun file => there.isPrefixOf file.1 then follow all there rest else none

/-- The bytes of the file at a path relative to the folder. -/
def bytes? (folder : Folder) (path : String) : Option ByteArray :=
  if Path.isAbsolute path.toList then none else follow folder.steps [] (Path.pieces path.toList)

/-- The text of a file, unless there is none or its bytes are no UTF-8. -/
def text? (folder : Folder) (path : String) : Option String := (folder.bytes? path).bind String.fromUTF8?

end Folder
end WorldAudit
