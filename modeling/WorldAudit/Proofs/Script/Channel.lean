import Mathlib.Data.List.Basic
import WorldAudit.Proofs.Script.Line
/-!
# Channel — the code and the comments of a text

A text holds code before the first semicolons of its lines and comments after them.  What is read off the code of its
lines does not depend on its comments (`flatMap_code`), nor the other way around (`flatMap_comment`): a line that is
left out for having neither would have added nothing.
-/
namespace WorldAudit
namespace Script

open Text

/-- **What stands before the first semicolons**, line by line. -/
def codeChannel (text : String) : List (List Char) := (splitLines text.toList).map codePart

/-- **What stands after the first semicolons**, line by line; nothing on a line without one. -/
def commentChannel (text : String) : List (List Char) := (splitLines text.toList).map commentPart

def codeText (code : List Char) : String := String.ofList (lowerChars (trim code))

def commentText (comment : List Char) : String := String.ofList (trim comment)

theorem toList_ofChars? {α : Type} {f : Line → List α} (h : f ⟨"", ""⟩ = []) (line : List Char) :
    (Line.ofChars? line).toList.flatMap f = f ⟨codeText (codePart line), commentText (commentPart line)⟩ := by
  unfold Line.ofChars? codeText commentText
  dsimp only
  split
  · rename_i hempty
    rw [Bool.and_eq_true, List.isEmpty_iff, List.isEmpty_iff] at hempty
    rw [hempty.1, hempty.2]
    exact h.symm
  · rw [Option.toList_some, List.flatMap_singleton]

/-- Lines that say nothing may as well be kept. -/
theorem flatMap_lines {α : Type} {f : Line → List α} (h : f ⟨"", ""⟩ = []) (body : String) :
    (lines body).flatMap f =
      (splitLines body.toList).flatMap fun line => f ⟨codeText (codePart line), commentText (commentPart line)⟩ := by
  rw [lines_eq, linesOf, List.filterMap_eq_flatMap_toList, List.flatMap_assoc]
  exact congrArg (List.flatMap · _) (funext (toList_ofChars? h))

section Channels

variable {α : Type} {f : String → List α} (h : f "" = []) {text text' : String}

include h

/-- **What is read off the code of the lines of a text** does not depend on its comments. -/
theorem flatMap_code (hcode : codeChannel text = codeChannel text') :
    ((lines text).flatMap fun line => f line.code) = (lines text').flatMap fun line => f line.code := by
  have hread : ∀ t, ((lines t).flatMap fun line => f line.code) = (codeChannel t).flatMap fun code => f (codeText code) :=
    fun t => by rw [flatMap_lines (f := fun line => f line.code) h, codeChannel, List.flatMap_map]
  rw [hread, hread, hcode]

/-- **What is read off the comments** does not depend on the code. -/
theorem flatMap_comment (hcomment : commentChannel text = commentChannel text') :
    ((lines text).flatMap fun line => f line.comment) = (lines text').flatMap fun line => f line.comment := by
  have hread : ∀ t, ((lines t).flatMap fun line => f line.comment) =
      (commentChannel t).flatMap fun comment => f (commentText comment) := fun t => by
    rw [flatMap_lines (f := fun line => f line.comment) h, commentChannel, List.flatMap_map]
  rw [hread, hread, hcomment]

end Channels

end Script
end WorldAudit
