import WorldAudit.Audit.Rule
import WorldAudit.Text.Lower
/-!
# Duplicates — equal references in one place

Two references of a cell that are not deleted are duplicates if they place the same object with equal rotation and
scale in one place.  Without a threshold the place has to be equal; with one, the square of the distance must not
exceed it.
-/
namespace WorldAudit
namespace Rules

open Number (Single)
open Number.Binary (le eq isZero add sub mul)

def sameTriple (a b : Triple) : Bool := eq a.x b.x && eq a.y b.y && eq a.z b.z

def square (x : Single) : Single := mul x x

/-- The square of the distance, rounded after each step. -/
def squaredDistance (a b : Triple) : Single :=
  add (add (square (sub a.x b.x)) (square (sub a.y b.y))) (square (sub a.z b.z))

/-- A threshold that is negative or no number counts as zero. -/
def effective (threshold : Single) : Single := if le .zero threshold then threshold else .zero

def samePlace (threshold : Single) (a b : Triple) : Bool :=
  if isZero (effective threshold) then sameTriple a b else le (squaredDistance a b) (effective threshold)

def isDuplicate (threshold : Single) (a b : Reference) : Bool :=
  Text.equalFold a.id b.id && sameTriple a.rotation b.rotation && eq (a.scale.getD .one) (b.scale.getD .one)
    && samePlace threshold a.position b.position

/-- The duplicates of a reference among those behind it. -/
def duplicatesOf (threshold : Single) (reference : Reference) (behind : List Reference) : List Reference :=
  if reference.isDeleted then []
  else behind.filter fun other => !other.isDeleted && isDuplicate threshold reference other

def duplicateMessage (a b : Reference) : String :=
  s!"contains duplicate reference {a.id} at position {a.position.text} {b.position.text}"

/-- Reports every pair of duplicates at the first of the two. -/
def duplicates (threshold : Single) : Rule := .stateless "duplicates" fun _ call =>
  match call with
  | .reference cell reference _ index =>
    ((duplicatesOf threshold reference (cell.references.drop (index + 1))).map fun other =>
      ⟨"Cell", cell.displayName, duplicateMessage reference other⟩, none)
  | _ => ([], none)

end Rules
end WorldAudit
