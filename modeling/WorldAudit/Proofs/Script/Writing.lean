import WorldAudit.Proofs.Script.Line
import WorldAudit.Proofs.Text.Lower
/-!
# Writing — the lines of a body written out again

A line feed between two bodies keeps their lines apart (`lines_append`).  What a body is split into are lines in a
normal form (`Line.Normal`): they are trimmed, in lower case, and hold no character at which they would be cut.  Written
out, such lines are the lines of what is written (`lines_bodyOf`), so that to split a body is to normalise it once and
for all (`splitting_is_stable`).
-/
namespace WorldAudit
namespace Script

open Text

/-- A line as it is written: its code, and its comment behind a semicolon if it has one. -/
def Line.written (line : Line) : String :=
  if line.comment.isEmpty then line.code else line.code ++ ";" ++ line.comment

/-- The body that lines make, each as it is written, with line feeds between them. -/
def bodyOf (ls : List Line) : String := "\n".intercalate (ls.map Line.written)

/-- **A line in normal form.** -/
structure Line.Normal (line : Line) : Prop where
  codeTrimmed : trim line.code.toList = line.code.toList
  codeLower : lower line.code = line.code
  codePlain : ∀ c ∈ line.code.toList, c ≠ ';' ∧ c ≠ '\n'
  commentTrimmed : trim line.comment.toList = line.comment.toList
  commentPlain : '\n' ∉ line.comment.toList
  spoken : line.code ≠ "" ∨ line.comment ≠ ""

/-! ## Lines are in normal form -/

/-- A class of characters at which a line would be cut. -/
theorem caseless_cuts : Caseless fun c => c == ';' || c == '\n' :=
  (caseless_single (by decide +kernel)).or (caseless_single (by decide +kernel))

theorem trim_lowerChars {cs : List Char} (h : trim cs = cs) : trim (lowerChars cs) = lowerChars cs := by
  have hfirst := head?_trim cs
  have hlast := getLast?_trim cs
  rw [h] at hfirst hlast
  exact trim_eq_self (head?_lowerChars caseless_isBlank hfirst) (getLast?_lowerChars caseless_isBlank hlast)

theorem normal_of_ofChars? {chars : List Char} {line : Line} (hfeed : '\n' ∉ chars)
    (h : Line.ofChars? chars = some line) : line.Normal := by
  simp only [Line.ofChars?] at h
  split at h
  · cases h
  · rename_i hspoken
    cases h
    have hinfix := trim_infix (codePart chars)
    have hinfix' := trim_infix (commentPart chars)
    have hcode : ∀ c ∈ trim (codePart chars), (c == ';' || c == '\n') = false := fun c hc => by
      have hpart := hinfix.subset hc
      have hsemicolon : (c != ';') = true := List.all_eq_true.1 List.all_takeWhile c hpart
      have hmem := (List.takeWhile_sublist _).subset hpart
      rw [Bool.or_eq_false_iff, beq_eq_false_iff_ne, beq_eq_false_iff_ne]
      exact ⟨bne_iff_ne.1 hsemicolon, fun e => hfeed (e ▸ hmem)⟩
    have hcomment : '\n' ∉ trim (commentPart chars) := fun hmem =>
      hfeed ((List.dropWhile_sublist _).subset ((List.drop_sublist 1 _).subset (hinfix'.subset hmem)))
    refine ⟨?_, ?_, fun c hc => ?_, ?_, ?_, ?_⟩
    · rw [String.toList_ofList]
      exact trim_lowerChars (trim_trim _)
    · rw [lower_ofList, lowerChars_lowerChars]
    · rw [String.toList_ofList] at hc
      have := (lowered_lowerChars _).all_not caseless_cuts hcode c hc
      rwa [Bool.or_eq_false_iff, beq_eq_false_iff_ne, beq_eq_false_iff_ne] at this
    · rw [String.toList_ofList, trim_trim]
    · rwa [String.toList_ofList]
    · rw [Bool.and_eq_true, Decidable.not_and_iff_not_or_not, List.isEmpty_iff, List.isEmpty_iff] at hspoken
      rwa [ne_eq, ne_eq, String.ofList_eq_empty_iff, String.ofList_eq_empty_iff]

/-- **The lines of a body are in normal form.** -/
theorem normal_of_mem_lines {body : String} {line : Line} (h : line ∈ lines body) : line.Normal := by
  obtain ⟨chars, hchars, hline⟩ := List.mem_filterMap.1 h
  exact normal_of_ofChars? (lineFeed_notMem_splitLines _ chars hchars) hline

/-! ## Lines in normal form are read as themselves -/

theorem toList_written (line : Line) : ∃ rest, line.written.toList = line.code.toList ++ rest ∧
    (∀ c ∈ rest.head?, notSemicolon c = false) ∧ rest.drop 1 = line.comment.toList := by
  unfold Line.written
  split
  · rename_i hempty
    refine ⟨[], (List.append_nil _).symm, fun c hc => absurd hc (by simp), ?_⟩
    rw [String.isEmpty_iff.1 hempty]
    rfl
  · refine ⟨';' :: line.comment.toList, by simp, fun c hc => ?_, rfl⟩
    obtain rfl := Option.some.inj hc
    rfl

namespace Line.Normal

variable {line : Line} (h : line.Normal)

include h

theorem ofChars?_written : Line.ofChars? line.written.toList = some line := by
  obtain ⟨rest, hwritten, hrest, hcomment⟩ := toList_written line
  have hcode : ∀ c ∈ line.code.toList, notSemicolon c = true := fun c hc => bne_iff_ne.2 (h.codePlain c hc).1
  have hlower : lowerChars line.code.toList = line.code.toList := by rw [← toList_lower, h.codeLower]
  have hspoken : (line.code.toList.isEmpty && line.comment.toList.isEmpty) = false := by
    rw [Bool.and_eq_false_iff, List.isEmpty_eq_false_iff, List.isEmpty_eq_false_iff]
    exact h.spoken.imp (mt String.toList_eq_nil_iff.1) (mt String.toList_eq_nil_iff.1)
  rw [Line.ofChars?, hwritten, codePart_eq hcode hrest, commentPart_eq hcode hrest, hcomment, h.codeTrimmed, hlower,
    h.commentTrimmed, hspoken, String.ofList_toList, String.ofList_toList]
  rfl

theorem lineFeed_notMem_written : '\n' ∉ line.written.toList := by
  have hcode : '\n' ∉ line.code.toList := fun hmem => (h.codePlain _ hmem).2 rfl
  unfold Line.written
  split
  · exact hcode
  · simp [hcode, h.commentPlain]

theorem linesOf_written : linesOf line.written.toList = [line] := by
  rw [linesOf, splitLines_of_not_mem h.lineFeed_notMem_written, List.filterMap_cons, h.ofChars?_written]
  rfl

end Line.Normal

theorem linesOf_append (xs ys : List Char) : linesOf (xs ++ '\n' :: ys) = linesOf xs ++ linesOf ys := by
  rw [linesOf, splitLines_append, List.filterMap_append, linesOf, linesOf]

/-- **A line feed keeps the lines before it and those behind it apart.** -/
theorem lines_append (a b : String) : lines (a ++ "\n" ++ b) = lines a ++ lines b := by
  rw [lines_eq, lines_eq, lines_eq, ← linesOf_append]
  simp

/-- **Lines in normal form are the lines of what they make written out.** -/
theorem lines_bodyOf : ∀ {ls : List Line}, (∀ line ∈ ls, line.Normal) → lines (bodyOf ls) = ls
  | [], _ => rfl
  | [line], h => by
    rw [lines_eq]
    exact (h line List.mem_cons_self).linesOf_written
  | line :: next :: ls, h => by
    have hrest := lines_bodyOf fun l hl => h l (List.mem_cons_of_mem line hl)
    have hbody : bodyOf (line :: next :: ls) = line.written ++ "\n" ++ bodyOf (next :: ls) :=
      String.intercalate_cons_cons
    rw [hbody, lines_append, hrest, lines_eq, (h line List.mem_cons_self).linesOf_written]
    rfl

/-- **To split a body is to bring it into a normal form.**  The lines of two bodies with a line feed between them are
those of the one and then those of the other; white space around a body adds no line and changes none; the lines of a
body are in normal form, and written out they make a body with the same lines. -/
theorem splitting_is_stable :
    (∀ a b : String, lines (a ++ "\n" ++ b) = lines a ++ lines b) ∧
    (∀ body : String, lines body = (splitLines body.toList).filterMap Line.ofChars? ∧
      lines (String.ofList (trim body.toList)) = lines body) ∧
    ∀ body : String, lines (bodyOf (lines body)) = lines body ∧ ∀ line ∈ lines body, line.Normal := by
  refine ⟨lines_append, fun body => ⟨lines_eq body, ?_⟩, fun body => ⟨?_, fun _ => normal_of_mem_lines⟩⟩
  · rw [lines, String.toList_ofList, trim_trim, lines]
  · exact lines_bodyOf fun _ => normal_of_mem_lines

/-- A sigma at the end of a word, a comment with a semicolon, and a line of white space only. -/
theorem sigma_and_blank_line_are_stable :
    let body := " Set ΟΔΟΣ ; a;b \r\n\u00a0\n ;c"
    ⟨"set οδος", "a;b"⟩ ∈ lines body ∧ (⟨"set οδος", "a;b"⟩ : Line).Normal ∧
      bodyOf (lines body) = "set οδος;a;b\n;c" := by
  intro body
  have hmem : ⟨"set οδος", "a;b"⟩ ∈ lines body := by decide +kernel
  exact ⟨hmem, (splitting_is_stable.2.2 body).2 _ hmem, by decide +kernel⟩

end Script
end WorldAudit
