import Mathlib.Data.List.DropRight
import WorldAudit.Proofs.Markup.Appending
import WorldAudit.Proofs.Rules.Books
import WorldAudit.Proofs.Script.Line
/-!
# Unseen — text that is not shown

What stands after the last tag that opens is not shown.  There may be several texts, with closing tags between them
(`trailingTexts`), and a reader of events keeps one of them, the last.  So what is told depends on that one alone, and
white space behind a closing tag hides what comes before it (`last_text_decides`).
-/
namespace WorldAudit

namespace Text

theorem trim_eq_nil_iff {cs : List Char} : trim cs = [] ↔ allBlank cs = true := by
  rw [allBlank, List.all_eq_true]
  constructor
  · intro h c hc
    obtain ⟨front, back, hfront, hback, heq⟩ := Script.eq_trim_between cs
    rw [heq, h, List.nil_append, List.mem_append] at hc
    exact hc.elim (hfront c) (hback c)
  · intro h
    simp [trim, List.dropWhile_eq_nil_iff.2 h]

theorem append_ne_append {a b : String} (n : Nat) (h : a.toList[n]? ≠ b.toList[n]?) (ha : n < a.toList.length)
    (hb : n < b.toList.length) (x y : String) : a ++ x ≠ b ++ y := by
  intro heq
  apply h
  have hx : (a ++ x).toList[n]? = a.toList[n]? := by rw [String.toList_append, List.getElem?_append_left ha]
  have hy : (b ++ y).toList[n]? = b.toList[n]? := by rw [String.toList_append, List.getElem?_append_left hb]
  rw [← hx, heq, hy]

end Text

namespace Markup

def Event.opens : Event → Bool
  | .opened _ => true
  | _ => false

def Event.content? : Event → Option String
  | .text content => some content
  | _ => none

/-- **The texts after the last tag that opens**, or all if none does. -/
def trailingTexts (es : List Event) : List String := (es.rtakeWhile fun e => !e.opens).filterMap Event.content?

theorem trailingTexts_concat (es : List Event) (e : Event) :
    trailingTexts (es ++ [e]) = if e.opens then [] else trailingTexts es ++ e.content?.toList := by
  unfold trailingTexts
  by_cases h : e.opens = true
  · simp [h]
  · cases hcontent : e.content? <;> simp [h, hcontent]

end Markup

namespace Rules

open Markup (Event trailingTexts)
open BookReading

theorem invisible_ofEvents_eq (es : List Event) :
    (ofEvents es).invisible = match (trailingTexts es).getLast? with
      | some content => String.ofList (Text.trim content.toList)
      | none => "" := by
  induction es using List.reverseRecOn with
  | nil => rfl
  | append_singleton es e ih =>
    rw [ofEvents_concat, Markup.trailingTexts_concat]
    cases e with
    | opened tag => rfl
    | text content => simp [BookReading.read, Event.opens, Event.content?]
    | closed tag => simpa [BookReading.read, addIf, Event.opens, Event.content?, apply_ite] using ih
    | «attribute» name value => simpa [BookReading.read, addIf, Event.opens, Event.content?, apply_ite] using ih

/-- What is said of text that is not shown: the last text alone decides. -/
def unseen (es : List Event) : List String :=
  match (trailingTexts es).getLast? with
  | some content =>
    if Text.allBlank content.toList then []
    else [s!"contains invisible text {String.ofList (Text.trim content.toList)}"]
  | none => []

theorem messages_ofEvents (es : List Event) : (ofEvents es).messages = (ofEvents es).problems ++ unseen es := by
  rw [messages, invisible_ofEvents_eq, unseen]
  refine congrArg _ ?_
  cases (trailingTexts es).getLast? with
  | none => rfl
  | some content =>
    by_cases h : Text.allBlank content.toList = true
    · simp [h, Text.trim_eq_nil_iff.2 h]
    · simp [h, ← String.toList_inj, Text.trim_eq_nil_iff, String.isEmpty_iff]

theorem unseen_ne_nil_iff {es : List Event} :
    unseen es ≠ [] ↔ ∃ content, (trailingTexts es).getLast? = some content ∧ Text.allBlank content.toList = false := by
  unfold unseen
  cases (trailingTexts es).getLast? with
  | none => simp
  | some content => by_cases h : Text.allBlank content.toList = true <;> simp [h]

theorem exists_piece_of_mem_unseen {es : List Event} {m : String} (h : m ∈ unseen es) :
    ∃ piece : String, m = s!"contains invisible text {piece}" := by
  unfold unseen at h
  split at h
  · split at h
    · cases h
    · exact ⟨_, List.mem_singleton.1 h⟩
  · cases h

/-- The problems of tags and images say nothing of invisible text. -/
theorem problem_ne_invisible {inImage : Bool} {e : Event} {m : String} (h : m ∈ problems? inImage e) (piece : String) :
    m ≠ s!"contains invisible text {piece}" := by
  -- the two differ at the letter after "contains inv"
  have hdiffer : ∀ x y : String, "contains invalid HTML " ++ x ≠ "contains invisible text " ++ y :=
    Text.append_ne_append 12 (by decide) (by decide) (by decide)
  cases e with
  | text content => cases h
  | opened tag =>
    rw [problems?] at h
    split at h
    · cases h
    · rw [List.mem_singleton.1 h]
      exact hdiffer ("opening tag <" ++ tag ++ ">") piece
  | closed tag =>
    rw [problems?] at h
    split at h
    · cases h
    · rw [List.mem_singleton.1 h]
      exact hdiffer ("closing tag </" ++ tag ++ ">") piece
  | «attribute» name value =>
    rw [problems?] at h
    split at h
    · rw [List.mem_singleton.1 h]
      exact Text.append_ne_append 12 (by decide) (by decide) (by decide) value piece
    · cases h

/-- **A book is reported for text that is not shown**, if it has the text given. -/
def ToldUnseen (ctx : Context) (id : String) (s : books.State) (book : Book) (text : String) : Prop :=
  ∃ piece : String, Finding.about (.book { book with text := some text }) s!"contains invisible text {piece}" ∈
    (books.step ctx (.record (.book { book with text := some text }) id) s).findings

section Told

variable (ctx : Context) (id : String) (s : books.State) (book : Book) {text : String} {es : List Event}
  (h : Markup.scan text = ⟨es, none⟩)

include h

theorem findings_books : (books.step ctx (.record (.book { book with text := some text }) id) s).findings =
    (ofEvents es).messages.map (Finding.about (.book { book with text := some text })) := by
  by_cases hempty : text = ""
  · subst hempty
    cases h
    simp [books, Rule.stateless]
    rfl
  · simp [books, Rule.stateless, hempty, bookMessages, h]
    rfl

/-- **Which books are reported**: those whose last text behind the last tag that opens is not blank. -/
theorem toldUnseen_iff : ToldUnseen ctx id s book text ↔
    ∃ content, (trailingTexts es).getLast? = some content ∧ Text.allBlank content.toList = false := by
  rw [← unseen_ne_nil_iff, ToldUnseen, findings_books ctx id s book h, messages_ofEvents]
  constructor
  · rintro ⟨piece, hpiece⟩ hunseen
    rw [hunseen, List.append_nil] at hpiece
    obtain ⟨m, hm, heq⟩ := List.mem_map.1 hpiece
    obtain ⟨front, e, back, -, hm⟩ := mem_problems_ofEvents.1 hm
    exact problem_ne_invisible hm piece (congrArg Finding.message heq)
  · intro hunseen
    obtain ⟨m, hm⟩ := List.exists_mem_of_ne_nil _ hunseen
    obtain ⟨piece, rfl⟩ := exists_piece_of_mem_unseen hm
    exact ⟨piece, List.mem_map_of_mem (List.mem_append_right _ hm)⟩

/-- **White space behind a text** leaves a book reported only if it makes a text longer that is there. -/
theorem toldUnseen_append_blanks {blanks : String} (hblanks : Text.allBlank blanks.toList = true) :
    ToldUnseen ctx id s book (text ++ blanks) ↔
      ToldUnseen ctx id s book text ∧ (blanks = "" ∨ ∃ content, es.getLast? = some (.text content)) := by
  have hless : '<' ∉ blanks.toList := fun hmem => absurd (List.all_eq_true.1 hblanks '<' hmem) (by decide)
  have hevents : ∀ run : List Char, run ≠ [] → Markup.textEvents run = [.text (Markup.collected run)] := by
    intro run hne
    simp [Markup.textEvents, hne]
  obtain ⟨front, run, rfl, happended⟩ := Markup.scan_append_plain h hless
  rw [toldUnseen_iff ctx id s book h, toldUnseen_iff ctx id s book happended]
  by_cases hrun : run = []
  · subst hrun
    by_cases hempty : blanks = ""
    · simp [hempty]
    -- the white space is a text of its own, since no text is before it
    · have hchars : blanks.toList.reverse ++ [] ≠ [] := by simp [hempty]
      have hcoherent := Markup.coherent_events (congrArg Markup.Scan.fault happended)
      rw [happended, hevents _ hchars] at hcoherent
      have hlast : ∀ content, front.getLast? ≠ some (.text content) := fun content hcontent =>
        ((List.isChain_append.1 hcoherent.apart).2.2 _ hcontent _ rfl).2 ⟨rfl, rfl⟩
      rw [hevents _ hchars]
      simp [Markup.trailingTexts_concat, Event.opens, Event.content?, Markup.textEvents, Markup.collected, hblanks,
        hempty, hlast]
  · have hblank : Text.allBlank (run.reverse ++ blanks.toList) = Text.allBlank run.reverse := by
      unfold Text.allBlank at hblanks ⊢
      rw [List.all_append, hblanks, Bool.and_true]
    rw [hevents _ hrun, hevents _ (by simp [hrun])]
    simp [Markup.trailingTexts_concat, Event.opens, Event.content?, Markup.collected, hblank]

/-- A closing tag behind a text changes nothing. -/
theorem toldUnseen_append_closing {tag : String} (htag : '>' ∉ tag.toList)
    (haccepted : (Markup.scan (text ++ "</" ++ tag ++ ">")).fault = none) :
    ToldUnseen ctx id s book (text ++ "</" ++ tag ++ ">") ↔ ToldUnseen ctx id s book text := by
  rw [toldUnseen_iff ctx id s book h, toldUnseen_iff ctx id s book (Markup.scan_append_closing h htag haccepted),
    Markup.trailingTexts_concat]
  simp [Event.opens, Event.content?]

/-- **When text that is not shown is reported.**  The last text after the last tag that opens decides, whatever is in
those before it.  So what is not shown is told of unless that last text is blank and one before it is not.  A closing tag
written behind a text changes nothing, while white space hides what was told unless the text ends in text. -/
theorem last_text_decides :
    (ToldUnseen ctx id s book text ↔
      ∃ content, (trailingTexts es).getLast? = some content ∧ Text.allBlank content.toList = false) ∧
    ((ToldUnseen ctx id s book text ↔ ∃ content ∈ trailingTexts es, Text.allBlank content.toList = false) ↔
      (∀ content ∈ trailingTexts es, Text.allBlank content.toList = true) ∨
      ∃ content, (trailingTexts es).getLast? = some content ∧ Text.allBlank content.toList = false) ∧
    (∀ blanks : String, Text.allBlank blanks.toList = true → (ToldUnseen ctx id s book (text ++ blanks) ↔
      ToldUnseen ctx id s book text ∧ (blanks = "" ∨ ∃ content, es.getLast? = some (.text content)))) ∧
    ∀ tag : String, '>' ∉ tag.toList → (Markup.scan (text ++ "</" ++ tag ++ ">")).fault = none →
      (ToldUnseen ctx id s book (text ++ "</" ++ tag ++ ">") ↔ ToldUnseen ctx id s book text) := by
  refine ⟨toldUnseen_iff ctx id s book h, ?_, fun blanks => toldUnseen_append_blanks ctx id s book h,
    fun tag => toldUnseen_append_closing ctx id s book h⟩
  rw [toldUnseen_iff ctx id s book h]
  have hall : (∀ content ∈ trailingTexts es, Text.allBlank content.toList = true) ↔
      ¬ ∃ content ∈ trailingTexts es, Text.allBlank content.toList = false := by simp
  have hlast : (∃ content, (trailingTexts es).getLast? = some content ∧ Text.allBlank content.toList = false) →
      ∃ content ∈ trailingTexts es, Text.allBlank content.toList = false := by
    rintro ⟨content, hcontent, hblank⟩
    exact ⟨content, List.mem_of_getLast? hcontent, hblank⟩
  rw [hall]
  constructor
  · intro hiff
    by_cases hsome : ∃ content ∈ trailingTexts es, Text.allBlank content.toList = false
    · exact .inr (hiff.2 hsome)
    · exact .inl hsome
  · rintro (hnone | hdecides)
    · exact ⟨hlast, fun hsome => absurd hsome hnone⟩
    · exact ⟨hlast, fun _ => hdecides⟩

end Told

/-- Two texts after the last tag that opens, the last of which may get longer. -/
theorem white_space_lengthens_text :
    let told := ToldUnseen ⟨{}, "a.json", true⟩ "b" () { id := "b" }
    Markup.scan "<p><b>x</b>y" = ⟨[.opened "p", .opened "b", .text "x", .closed "b", .text "y"], none⟩ ∧
    told "<p><b>x</b>y" ∧ told ("<p><b>x</b>y" ++ " \n") ∧ told ("<p><b>x</b>y" ++ "</" ++ "p" ++ ">") := by
  intro told
  have hscan : Markup.scan "<p><b>x</b>y" =
      ⟨[.opened "p", .opened "b", .text "x", .closed "b", .text "y"], none⟩ := by decide +kernel
  obtain ⟨htold, -, hblanks, hclosing⟩ := last_text_decides ⟨{}, "a.json", true⟩ "b" () { id := "b" } hscan
  have hy : told "<p><b>x</b>y" := htold.2 ⟨"y", by decide +kernel, by decide +kernel⟩
  exact ⟨hscan, hy, (hblanks " \n" (by decide +kernel)).2 ⟨hy, .inr ⟨"y", rfl⟩⟩,
    (hclosing "p" (by decide +kernel) (by decide +kernel)).2 hy⟩

/-- **White space after a closing tag hides text that is not shown.** -/
theorem white_space_hides_text :
    let told := ToldUnseen ⟨{}, "a.json", true⟩ "b" () { id := "b" }
    let es : List Event := [.opened "b", .text "x", .closed "b", .text " "]
    Markup.scan "<b>x</b> " = ⟨es, none⟩ ∧ "x" ∈ trailingTexts es ∧ told "<b>x</b>" ∧ ¬ told "<b>x</b> " := by
  intro told es
  refine ⟨by decide +kernel, by decide +kernel, ⟨"x", ?_⟩, ?_⟩
  · decide +kernel
  · have hnothing : (books.step ⟨{}, "a.json", true⟩ (.record (.book { id := "b", text := some "<b>x</b> " }) "b")
        ()).findings = [] := by decide +kernel
    rintro ⟨piece, hpiece⟩
    rw [hnothing] at hpiece
    cases hpiece

end Rules
end WorldAudit
