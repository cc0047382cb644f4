import WorldAudit.Proofs.Script.Word
import WorldAudit.Script.Line
/-!
# Line — the lines of a body as they are written

A body is trimmed before it is split, so its first and last lines can lose white space and blank lines at the ends are
not seen.  Nothing of that shows, for both parts of a line are trimmed again and lines that say nothing are left out
(`lines_eq`).
-/
namespace WorldAudit
namespace Script

open Text

/-! ## Trimming -/

theorem dropWhile_append_of_head {p : Char → Bool} {ys : List Char} (h : ∀ c ∈ ys.head?, p c = false) (xs : List Char) :
    (xs ++ ys).dropWhile p = xs.dropWhile p ++ ys := by
  induction xs with
  | nil =>
    cases ys with
    | nil => rfl
    | cons y ys => exact List.dropWhile_cons_of_neg (by simp [h y rfl])
  | cons x xs ih =>
    by_cases hx : p x = true
    · rw [List.cons_append, List.dropWhile_cons_of_pos hx, List.dropWhile_cons_of_pos hx, ih]
    · rw [List.cons_append, List.dropWhile_cons_of_neg hx, List.dropWhile_cons_of_neg hx, List.cons_append]

theorem head?_append_of_ne_nil {xs : List Char} (h : xs ≠ []) (ys : List Char) : (xs ++ ys).head? = xs.head? := by
  cases xs with
  | nil => exact absurd rfl h
  | cons x xs => rfl

/-- The text without the white space at its end. -/
def trimEnd (cs : List Char) : List Char := (cs.reverse.dropWhile isBlank).reverse

theorem trimEnd_isPrefix (cs : List Char) : trimEnd cs <+: cs := by
  have h := (List.dropWhile_suffix isBlank (l := cs.reverse)).reverse
  rwa [List.reverse_reverse] at h

/-- **Trimming stays outside of what begins and ends without white space.** -/
theorem trim_around {mid : List Char} (hne : mid ≠ []) (hfirst : ∀ c ∈ mid.head?, isBlank c = false)
    (hlast : ∀ c ∈ mid.getLast?, isBlank c = false) (xs ys : List Char) :
    trim (xs ++ (mid ++ ys)) = xs.dropWhile isBlank ++ (mid ++ trimEnd ys) := by
  have hhead : ∀ c ∈ (mid ++ ys).head?, isBlank c = false := by
    rwa [head?_append_of_ne_nil hne]
  have hend : ∀ c ∈ (mid.reverse ++ (xs.dropWhile isBlank).reverse).head?, isBlank c = false := by
    rwa [head?_append_of_ne_nil (by simpa using hne), List.head?_reverse]
  rw [trim, dropWhile_append_of_head hhead, List.reverse_append, List.reverse_append, List.append_assoc,
    dropWhile_append_of_head hend, trimEnd]
  simp

theorem trim_cons {b : Char} (hb : isBlank b = true) (cs : List Char) : trim (b :: cs) = trim cs := by
  rw [trim, List.dropWhile_cons_of_pos hb, trim]

theorem trim_concat {b : Char} (hb : isBlank b = true) (cs : List Char) : trim (cs ++ [b]) = trim cs := by
  rw [trim, List.dropWhile_append, trim]
  split
  · rename_i hempty
    rw [List.isEmpty_iff.1 hempty, List.dropWhile_cons_of_pos hb]
    rfl
  · rw [List.reverse_append, List.reverse_singleton, List.singleton_append, List.dropWhile_cons_of_pos hb]

/-- A text is what trimming leaves of it between white space. -/
theorem eq_trim_between (cs : List Char) : ∃ front back,
    (∀ b ∈ front, isBlank b = true) ∧ (∀ b ∈ back, isBlank b = true) ∧ cs = front ++ (trim cs ++ back) := by
  have hall (ds : List Char) : ∀ b ∈ ds.takeWhile isBlank, isBlank b = true := List.all_eq_true.1 List.all_takeWhile
  have hrest : trim cs ++ ((cs.dropWhile isBlank).reverse.takeWhile isBlank).reverse = cs.dropWhile isBlank := by
    rw [trim, ← List.reverse_append, List.takeWhile_append_dropWhile, List.reverse_reverse]
  refine ⟨cs.takeWhile isBlank, ((cs.dropWhile isBlank).reverse.takeWhile isBlank).reverse, hall cs, ?_, ?_⟩
  · exact fun b hb => hall _ b (List.mem_reverse.1 hb)
  · rw [hrest, List.takeWhile_append_dropWhile]

theorem trim_infix (cs : List Char) : trim cs <:+: cs := by
  obtain ⟨front, back, _, _, heq⟩ := eq_trim_between cs
  exact ⟨front, back, by rw [List.append_assoc, ← heq]⟩

/-- What begins and ends without white space is trimmed. -/
theorem trim_eq_self {cs : List Char} (hfirst : ∀ c ∈ cs.head?, isBlank c = false)
    (hlast : ∀ c ∈ cs.getLast?, isBlank c = false) : trim cs = cs := by
  by_cases hne : cs = []
  · rw [hne, trim_nil]
  · have := (trim_around hne hfirst hlast [] []).trans (List.append_nil cs)
    rwa [List.nil_append, List.append_nil] at this

theorem head?_trim (cs : List Char) : ∀ c ∈ (trim cs).head?, isBlank c = false := by
  intro c hc
  have hpre : trim cs <+: cs.dropWhile isBlank := trimEnd_isPrefix _
  have hne : trim cs ≠ [] := fun hnil => by rw [hnil] at hc; cases hc
  have hhead := List.head?_dropWhile_not isBlank cs
  obtain ⟨back, heq⟩ := hpre
  rw [← heq, head?_append_of_ne_nil hne, Option.mem_def.1 hc] at hhead
  simpa using hhead

theorem getLast?_trim (cs : List Char) : ∀ c ∈ (trim cs).getLast?, isBlank c = false := by
  intro c hc
  have hhead := List.head?_dropWhile_not isBlank (cs.dropWhile isBlank).reverse
  rw [trim, List.getLast?_reverse] at hc
  rw [Option.mem_def.1 hc] at hhead
  simpa using hhead

theorem trim_trim (cs : List Char) : trim (trim cs) = trim cs := trim_eq_self (head?_trim cs) (getLast?_trim cs)

/-! ## The parts of a line -/

theorem ne_semicolon_of_isBlank {b : Char} (hb : isBlank b = true) : notSemicolon b = true := by
  refine bne_iff_ne.2 ?_
  rintro rfl
  cases hb

section Split

variable {code rest : List Char} (hcode : ∀ c ∈ code, notSemicolon c = true)
  (hrest : ∀ c ∈ rest.head?, notSemicolon c = false)

include hcode hrest

theorem codePart_eq : codePart (code ++ rest) = code := takeWhile_run hcode hrest

theorem commentPart_eq : commentPart (code ++ rest) = rest.drop 1 := by rw [commentPart, dropWhile_run hcode hrest]

end Split

theorem exists_parts (line : List Char) : ∃ code rest, (∀ c ∈ code, notSemicolon c = true) ∧
    (∀ c ∈ rest.head?, notSemicolon c = false) ∧ line = code ++ rest := by
  refine ⟨line.takeWhile notSemicolon, line.dropWhile notSemicolon, List.all_eq_true.1 List.all_takeWhile, ?_, ?_⟩
  · intro c hc
    have := List.head?_dropWhile_not notSemicolon line
    rw [Option.mem_def.1 hc] at this
    simpa using this
  · rw [List.takeWhile_append_dropWhile]

theorem ofChars?_congr {line line' : List Char} (hcode : trim (codePart line) = trim (codePart line'))
    (hcomment : trim (commentPart line) = trim (commentPart line')) : Line.ofChars? line = Line.ofChars? line' := by
  rw [Line.ofChars?, hcode, hcomment, Line.ofChars?]

theorem ofChars?_of_code {line : List Char} (h : lowerChars (trim (codePart line)) ≠ []) :
    ∃ comment, Line.ofChars? line = some ⟨String.ofList (lowerChars (trim (codePart line))), comment⟩ := by
  have hempty : (lowerChars (trim (codePart line))).isEmpty = false := List.isEmpty_eq_false_iff.2 h
  exact ⟨String.ofList (trim (commentPart line)), by simp [Line.ofChars?, hempty]⟩

section Parts

variable {b : Char} (hb : isBlank b = true) (line : List Char)

include hb

theorem ofChars?_cons : Line.ofChars? (b :: line) = Line.ofChars? line := by
  have hb' := ne_semicolon_of_isBlank hb
  refine ofChars?_congr ?_ ?_
  · rw [codePart, List.takeWhile_cons_of_pos hb', trim_cons hb, codePart]
  · rw [commentPart, List.dropWhile_cons_of_pos hb', commentPart]

theorem ofChars?_concat : Line.ofChars? (line ++ [b]) = Line.ofChars? line := by
  obtain ⟨code, rest, hcode, hrest, rfl⟩ := exists_parts line
  cases rest with
  | nil =>
    -- Without a semicolon the white space belongs to the code.
    have hlong : ∀ c ∈ code ++ [b], notSemicolon c = true := by
      simpa [or_imp, forall_and] using ⟨hcode, ne_semicolon_of_isBlank hb⟩
    have hlongCode := codePart_eq hlong hrest
    have hlongComment := commentPart_eq hlong hrest
    rw [List.append_nil] at hlongCode hlongComment
    have hcomment := commentPart_eq hcode hrest
    have hcode := codePart_eq hcode hrest
    rw [List.append_nil] at hcode hcomment
    refine ofChars?_congr ?_ ?_
    · rw [List.append_nil, hlongCode, hcode, trim_concat hb]
    · rw [List.append_nil, hlongComment, hcomment]
  | cons c rest =>
    rw [List.append_assoc, List.cons_append]
    have hrest' : ∀ d ∈ (c :: (rest ++ [b])).head?, notSemicolon d = false := hrest
    refine ofChars?_congr ?_ ?_
    · rw [codePart_eq hcode hrest', codePart_eq hcode hrest]
    · rw [commentPart_eq hcode hrest', commentPart_eq hcode hrest]
      exact trim_concat hb rest

end Parts

/-! ## The lines of a body -/

theorem splitLines_append (xs ys : List Char) : splitLines (xs ++ '\n' :: ys) = splitLines xs ++ splitLines ys := by
  induction xs with
  | nil => rfl
  | cons x xs ih =>
    by_cases hx : x = '\n'
    · rw [List.cons_append, splitLines, if_pos hx, ih, splitLines, if_pos hx, List.cons_append]
    · obtain ⟨line, lines, hlines⟩ := List.exists_cons_of_ne_nil (splitLines_ne_nil xs)
      rw [List.cons_append, splitLines, if_neg hx, ih, splitLines, if_neg hx, hlines]
      rfl

theorem splitLines_of_not_mem {line : List Char} (h : '\n' ∉ line) : splitLines line = [line] := by
  induction line with
  | nil => rfl
  | cons c line ih =>
    rw [List.mem_cons, not_or] at h
    rw [splitLines, if_neg (Ne.symm h.1), ih h.2]

theorem lineFeed_notMem_splitLines : ∀ (cs : List Char), ∀ line ∈ splitLines cs, '\n' ∉ line
  | [], line, hl => by
    rw [List.mem_singleton.1 hl]
    exact List.not_mem_nil
  | c :: cs, line, hl => by
    have ih := lineFeed_notMem_splitLines cs
    rw [splitLines] at hl
    split at hl
    · rcases List.mem_cons.1 hl with rfl | hl
      · exact List.not_mem_nil
      · exact ih line hl
    · rename_i hc
      split at hl
      · rw [List.mem_singleton.1 hl]
        simpa using Ne.symm hc
      · rename_i first rest heq
        rw [heq] at ih
        rcases List.mem_cons.1 hl with rfl | hl
        · simpa [Ne.symm hc] using ih first List.mem_cons_self
        · exact ih line (List.mem_cons_of_mem first hl)

/-- What is added at the end of a text is added to its last line. -/
theorem splitLines_concat {b : Char} (hb : b ≠ '\n') (cs : List Char) :
    ∃ lines line, splitLines cs = lines ++ [line] ∧ splitLines (cs ++ [b]) = lines ++ [line ++ [b]] := by
  induction cs with
  | nil => exact ⟨[], [], rfl, by rw [List.nil_append, splitLines, if_neg hb]; rfl⟩
  | cons c cs ih =>
    obtain ⟨lines, line, hcs, hconcat⟩ := ih
    by_cases hc : c = '\n'
    · refine ⟨[] :: lines, line, ?_, ?_⟩
      · rw [splitLines, if_pos hc, hcs]; rfl
      · rw [List.cons_append, splitLines, if_pos hc, hconcat]; rfl
    · cases lines with
      | nil =>
        refine ⟨[], c :: line, ?_, ?_⟩
        · rw [splitLines, if_neg hc, hcs]; rfl
        · rw [List.cons_append, splitLines, if_neg hc, hconcat]; rfl
      | cons first lines =>
        refine ⟨(c :: first) :: lines, line, ?_, ?_⟩
        · rw [splitLines, if_neg hc, hcs]; rfl
        · rw [List.cons_append, splitLines, if_neg hc, hconcat]; rfl

def linesOf (cs : List Char) : List Line := (splitLines cs).filterMap Line.ofChars?

theorem linesOf_cons {b : Char} (hb : isBlank b = true) (cs : List Char) : linesOf (b :: cs) = linesOf cs := by
  by_cases hfeed : b = '\n'
  · rw [linesOf, splitLines, if_pos hfeed]; rfl
  · obtain ⟨line, lines, hlines⟩ := List.exists_cons_of_ne_nil (splitLines_ne_nil cs)
    rw [linesOf, splitLines, if_neg hfeed, linesOf, hlines]
    dsimp only
    rw [List.filterMap_cons, List.filterMap_cons, ofChars?_cons hb]

theorem linesOf_concat {b : Char} (hb : isBlank b = true) (cs : List Char) : linesOf (cs ++ [b]) = linesOf cs := by
  by_cases hfeed : b = '\n'
  · subst hfeed
    rw [linesOf, splitLines_append, List.filterMap_append]
    exact List.append_nil _
  · obtain ⟨lines, line, hcs, hconcat⟩ := splitLines_concat hfeed cs
    rw [linesOf, hconcat, linesOf, hcs, List.filterMap_append, List.filterMap_append, List.filterMap_cons,
      List.filterMap_cons, ofChars?_concat hb]

theorem linesOf_blanks {front back : List Char} (hfront : ∀ b ∈ front, isBlank b = true)
    (hback : ∀ b ∈ back, isBlank b = true) (cs : List Char) : linesOf (front ++ (cs ++ back)) = linesOf cs := by
  induction front with
  | cons b front ih =>
    rw [List.cons_append, linesOf_cons (hfront b List.mem_cons_self)]
    exact ih fun d hd => hfront d (List.mem_cons_of_mem b hd)
  | nil =>
    rw [List.nil_append]
    induction back generalizing cs with
    | nil => rw [List.append_nil]
    | cons b back ih =>
      have hcons : cs ++ b :: back = cs ++ [b] ++ back := by simp
      rw [hcons, ih (fun d hd => hback d (List.mem_cons_of_mem b hd)), linesOf_concat (hback b List.mem_cons_self)]

/-- **The lines of a body are those of its text as written**, white space at its ends included. -/
theorem lines_eq (body : String) : lines body = linesOf body.toList := by
  obtain ⟨front, back, hfront, hback, heq⟩ := eq_trim_between body.toList
  have := linesOf_blanks hfront hback (trim body.toList)
  rw [← heq] at this
  exact this.symm

/-- A line of a text: no line feed is in it, and line feeds or the ends of the text are around it. -/
structure IsLineOf (line text : List Char) : Prop where
  oneLine : '\n' ∉ line
  between : ∃ before after, text = before ++ (line ++ after) ∧ (∀ c ∈ before.getLast?, c = '\n') ∧
    ∀ c ∈ after.head?, c = '\n'

theorem IsLineOf.mem_splitLines {line text : List Char} (h : IsLineOf line text) : line ∈ splitLines text := by
  obtain ⟨before, after, rfl, hbefore, hafter⟩ := h.between
  have hmem : line ∈ splitLines (line ++ after) := by
    cases after with
    | nil => rw [List.append_nil, splitLines_of_not_mem h.oneLine]; exact List.mem_cons_self
    | cons c after =>
      obtain rfl : c = '\n' := hafter c rfl
      rw [splitLines_append, splitLines_of_not_mem h.oneLine]
      exact List.mem_cons_self
  rcases List.eq_nil_or_concat before with rfl | ⟨front, c, rfl⟩
  · exact hmem
  · obtain rfl : c = '\n' := hbefore c (by simp)
    rw [List.concat_eq_append, List.append_assoc, List.singleton_append, splitLines_append]
    exact List.mem_append_right _ hmem

theorem IsLineOf.behind {line rest : List Char} (h : IsLineOf line rest) (first : List Char) :
    IsLineOf line (first ++ '\n' :: rest) := by
  obtain ⟨hline, before, after, rfl, hbefore, hafter⟩ := h
  refine ⟨hline, first ++ '\n' :: before, after, by simp, fun c hc => ?_, hafter⟩
  rw [List.getLast?_append, List.getLast?_cons, Option.some_or] at hc
  cases hlast : before.getLast? with
  | none => rw [hlast] at hc; exact (Option.some.inj hc).symm
  | some d => rw [hlast] at hc; exact hbefore c (hlast ▸ hc)

theorem isLineOf_of_mem_splitLines {line : List Char} (text : List Char) (h : line ∈ splitLines text) :
    IsLineOf line text := by
  by_cases hfeed : '\n' ∈ text
  · obtain ⟨first, rest, heq, hfirst⟩ := List.eq_append_cons_of_mem hfeed
    rw [heq, splitLines_append, splitLines_of_not_mem hfirst] at h
    rw [heq]
    rcases List.mem_append.1 h with h | h
    · obtain rfl := List.mem_singleton.1 h
      exact ⟨hfirst, [], '\n' :: rest, rfl, by rintro _ ⟨⟩, by rintro _ ⟨⟩; rfl⟩
    · exact (isLineOf_of_mem_splitLines rest h).behind first
  · rw [splitLines_of_not_mem hfeed] at h
    obtain rfl := List.mem_singleton.1 h
    exact ⟨hfeed, [], [], by simp, by rintro _ ⟨⟩, by rintro _ ⟨⟩⟩
termination_by text.length
decreasing_by simp [heq]; omega

/-- **The lines of a text are its pieces between line feeds.** -/
theorem isLineOf_iff {line text : List Char} : IsLineOf line text ↔ line ∈ splitLines text :=
  ⟨IsLineOf.mem_splitLines, isLineOf_of_mem_splitLines text⟩

/-- **Every line of a body that says anything is one of its lines.** -/
theorem mem_lines {body : String} {chars : List Char} {line : Line} (h : IsLineOf chars body.toList)
    (hline : Line.ofChars? chars = some line) : line ∈ lines body := by
  rw [lines_eq]
  exact List.mem_filterMap.2 ⟨chars, h.mem_splitLines, hline⟩

end Script
end WorldAudit
