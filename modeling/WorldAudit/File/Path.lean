/-!
# Path — file paths as texts

A path is a text of pieces between slashes.  Empty pieces and single dots lead nowhere, but a path keeps them as it is
written.
-/
namespace WorldAudit
namespace Path

/-- The pieces of a path between its slashes. -/
def pieces : List Char → List (List Char)
  | [] => [[]]
  | c :: cs =>
    if c = '/' then [] :: pieces cs
    else match pieces cs with
      | [] => [[c]]
      | piece :: rest => (c :: piece) :: rest

/-- A piece that leads nowhere. -/
def isIdle (piece : List Char) : Bool := piece == [] || piece == ['.']

def isAbsolute (path : List Char) : Bool := path.head? == some '/'

def joined (pieces : List (List Char)) : List Char := List.intercalate ['/'] pieces

/-- The pieces without idle ones at their two ends. -/
def trimmed (pieces : List (List Char)) : List (List Char) :=
  ((pieces.dropWhile isIdle).reverse.dropWhile isIdle).reverse

/-- What is left of the pieces of a path after those of a folder that holds it. -/
def inside? : List (List Char) → List (List Char) → Option (List (List Char))
  | [], path => some (trimmed path)
  | _ :: _, [] => none
  | step :: folder, piece :: path =>
    if isIdle piece then inside? (step :: folder) path
    else if step = piece then inside? folder path
    else none

/-- The path as seen from a folder: relative to it if it lies inside, otherwise unchanged. -/
def seenFrom (folder path : String) : String :=
  if isAbsolute folder.toList && isAbsolute path.toList then
    match inside? ((pieces folder.toList).filter (!isIdle ·)) (pieces path.toList) with
    | some rest => String.ofList (joined rest)
    | none => path
  else path

/-- A path inside a folder; an absolute path stands for itself. -/
def within (folder path : String) : String :=
  if isAbsolute path.toList then path else folder ++ "/" ++ path

end Path
end WorldAudit
