/-!
# EditDistance — the least number of edits between two texts

An edit inserts, deletes or replaces one character.  The distances from a text to all endings of another are kept as
one row, and a character put before the text gives the next row.
-/
namespace WorldAudit
namespace Text

/-- The distances from the empty text to every ending of `bs`. -/
def insertions : List Char → List Nat
  | [] => [0]
  | b :: bs => (b :: bs).length :: insertions bs

/-- The row of `a :: as` for the endings of `bs`, from the row of `as`. -/
def nextRow (a : Char) : List Char → List Nat → List Nat
  | [], row => [row.headD 0 + 1]
  | b :: bs, row =>
    let rest := nextRow a bs row.tail
    let here := row.headD 0
    let after := row.tail.headD 0
    (if a = b then after else 1 + min after (min here (rest.headD 0))) :: rest

def editDistance (as bs : List Char) : Nat :=
  (as.foldr (fun a row => nextRow a bs row) (insertions bs)).headD 0

@[simp] theorem editDistance_nil_left (bs : List Char) : editDistance [] bs = bs.length := by
  cases bs <;> rfl

end Text
end WorldAudit
