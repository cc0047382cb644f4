import WorldAudit.Proofs.Rules.BookReports
import WorldAudit.Proofs.Rules.Conduct
import WorldAudit.Proofs.Rules.Unseen
/-!
# Tags — what is said of the tags and images of a book

A problem is that of one event and of the tag whose head it stands in.  A reader of events knows the tag read last,
which is the same one wherever an attribute comes, since attributes stand in the head of a tag only (`Led.exists_head`).
So it tells of the problems of events one after another (`problems_eq`), and of none if the text is no markup
(`report_of_tags`).
-/
namespace WorldAudit

namespace Markup

/-- **The tag in whose head events end**: one that opens, behind which there are attributes at most. -/
def headTag? (es : List Event) : Option String :=
  match (es.rdropWhile Event.isAttribute).getLast? with
  | some (.opened tag) => some tag
  | _ => none

theorem headTag?_concat (es : List Event) (e : Event) :
    headTag? (es ++ [e]) = match e with
      | .opened tag => some tag
      | .attribute _ _ => headTag? es
      | .text _ | .closed _ => none := by
  cases e <;> simp [headTag?, List.rdropWhile_concat, Event.isAttribute]

/-- Events whose attributes stand in the head of a tag. -/
structure Led (es : List Event) : Prop where
  first : ∀ e ∈ es.head?, e.isAttribute = false
  apart : es.IsChain Event.Precedes

theorem led_events {text : String} (h : (scan text).fault = none) : Led (scan text).events where
  first e he := by
    rw [← Bool.not_eq_true]
    exact fun hattribute => Bool.false_ne_true ((coherent_events h).led e he hattribute)
  apart := (coherent_events h).apart

theorem Led.front {es : List Event} {e : Event} (h : Led (es ++ [e])) : Led es where
  first d hd := h.first d (by rw [List.head?_append, Option.mem_def.1 hd]; rfl)
  apart := (List.isChain_append.1 h.apart).1

/-- **An attribute stands in the head of a tag.** -/
theorem Led.exists_head {es : List Event} {e : Event} (h : Led (es ++ [e])) (he : e.isAttribute = true) :
    ∃ tag, headTag? es = some tag := by
  induction es using List.reverseRecOn generalizing e with
  | nil => simp [h.first e rfl] at he
  | append_singleton es d ih =>
    have hin := ((List.isChain_append.1 h.apart).2.2 d (by simp) e (by simp)).1 he
    rw [headTag?_concat]
    cases d with
    | opened tag => exact ⟨tag, rfl⟩
    | «attribute» name value => exact ih h.front rfl
    | text content => cases hin
    | closed tag => cases hin

end Markup

namespace Rules

open Markup (Event headTag?)
open BookReading

/-- Whether books may have the tag, in any case. -/
def permitted (tag : String) : Bool := ["div", "font", "br", "p", "img", "b"].any (Text.equalFold tag)

/-- **What is wrong with an event** in the head of a tag, or in none. -/
def tagProblem? (head : Option String) : Event → Option String
  | .opened tag =>
    if permitted tag then none else some s!"contains invalid HTML opening tag <{tag}>"
  | .attribute name value =>
    if head.any (Text.equalFold · "img") && Text.equalFold name "src" && value.toList.contains '/' then
      some s!"contains invalid IMG SRC {value}"
    else none
  | .text _ => none
  | .closed tag =>
    if permitted tag then none else some s!"contains invalid HTML closing tag </{tag}>"

/-- What is wrong with events, one after another. -/
def tagProblems (es : List Event) : List String :=
  es.zipIdx.filterMap fun (e, k) => tagProblem? (headTag? (es.take k)) e

theorem tagProblems_concat (es : List Event) (e : Event) :
    tagProblems (es ++ [e]) = tagProblems es ++ (tagProblem? (headTag? es) e).toList := by
  have htake : ∀ p ∈ es.zipIdx, (es ++ [e]).take p.2 = es.take p.2 := fun p hp => by
    obtain ⟨hlt, -⟩ := List.getElem?_eq_some_iff.1 (List.mem_zipIdx_iff_getElem?.1 hp)
    exact List.take_append_of_le_length hlt.le
  unfold tagProblems
  rw [List.zipIdx_append, List.filterMap_append]
  refine congrArg₂ (· ++ ·) (List.filterMap_congr fun p hp => ?_) ?_
  · dsimp only
    rw [htake p hp]
  · cases h : tagProblem? (headTag? es) e <;> simp [h]

theorem knows_eq (tag : String) : knows tag = permitted tag := by
  have hlower : ∀ known ∈ Markup.bookTags, known.toList.map Char.toLower = known.toList := by decide
  show Markup.bookTags.contains _ = Markup.bookTags.any _
  unfold Text.equalFold
  rw [List.contains_eq_any_beq, Bool.eq_iff_iff, List.any_eq_true, List.any_eq_true]
  refine exists_congr fun known => and_congr_right fun hknown => ?_
  rw [hlower known hknown, beq_iff_eq, beq_iff_eq, ← String.toList_inj, String.toList_ofList]

theorem inImage_eq {es : List Event} {tag : String} (h : headTag? es = some tag) :
    (ofEvents es).inImage = Text.equalFold tag "img" := by
  induction es using List.reverseRecOn with
  | nil => cases h
  | append_singleton es d ih =>
    rw [Markup.headTag?_concat] at h
    rw [ofEvents_concat]
    cases d with
    | opened name =>
      cases h
      rfl
    | «attribute» name value => simpa [BookReading.read, addIf, apply_ite] using ih h
    | text content => cases h
    | closed name => cases h

/-- **The problems of a reader of events** are those of the events. -/
theorem problems_eq {es : List Event} (h : Markup.Led es) : (ofEvents es).problems = tagProblems es := by
  induction es using List.reverseRecOn with
  | nil => rfl
  | append_singleton es e ih =>
    rw [ofEvents_concat, problems_read, tagProblems_concat, ih h.front]
    refine congrArg _ ?_
    cases e with
    | opened tag => simp [problems?, tagProblem?, knows_eq, apply_ite]
    | text content => rfl
    | closed tag => simp [problems?, tagProblem?, knows_eq, apply_ite]
    | «attribute» name value =>
      obtain ⟨tag, htag⟩ := h.exists_head rfl
      simp only [problems?, tagProblem?, inImage_eq htag, htag, Option.any_some]
      split <;> rfl

/-- **What is said of a record**: of a book that its text is no markup, or else what is wrong with its tags and images,
and with the text that is not shown. -/
def bookFindings : Record → List Finding
  | .book book =>
    let told := Markup.scan (book.text.getD "")
    let messages := match told.fault with
      | some fault => [s!"contains malformed markup ({fault.message})"]
      | none => tagProblems told.events ++ unseen told.events
    messages.map (Finding.about (.book book))
  | _ => []

theorem recordSayings_eq (record : Record) : recordSayings record = bookFindings record := by
  cases record with
  | book book =>
    rw [recordSayings, bookFindings]
    cases hfault : (Markup.scan (book.text.getD "")).fault with
    | some fault =>
      rw [bookSayings_of_fault hfault]
      rfl
    | none => rw [bookSayings_of_accepted hfault, messages_ofEvents, problems_eq (Markup.led_events hfault)]
  | _ => rfl

/-- **What a run reports of tags and images.**  At the seat of the rule for books there are, one book after another, the
problems of its tags and images in the order of its text.  Of a text that is no markup there is only that, and none of
the problems before its fault. -/
theorem report_of_tags {settings : Settings} {rules : List Rule} {files : List RecordFile} {i : Nat}
    (hr : rules[i]? = some books) (hrun : (Run.of settings rules files).violation = none) :
    ((Run.of settings rules files).log.filter (·.seat == i)).flatMap Delivery.report =
      (files.flatMap (·.records)).flatMap bookFindings := by
  rw [report_of_books hr hrun, funext recordSayings_eq]

/-- A tag that is not known before a fault, and tags and images in a text without one. -/
theorem tags_of_two_books :
    let files := [⟨"a.json", [.book { id := "a", text := some "<i>x</b>" },
      .book { id := "b", text := some ("<DIV><FONT src=\"1/2\"><p><i><IMG Src=\"a/b\"/>" ++
        "<img src=c width=\"1/2\"></i></p><B>y</B><Br></FONT></DIV>x") }]⟩]
    let run := Run.of {} (standard {}) files
    (standard {})[0]? = some books ∧ run.violation = none ∧
    (run.log.filter (·.seat == 0)).flatMap Delivery.report =
      [⟨"Book", "a", "contains malformed markup (Unexpected </b> expected </i> at index 7)"⟩,
        ⟨"Book", "b", "contains invalid HTML opening tag <i>"⟩, ⟨"Book", "b", "contains invalid IMG SRC a/b"⟩,
        ⟨"Book", "b", "contains invalid HTML closing tag </i>"⟩, ⟨"Book", "b", "contains invisible text x"⟩] := by
  intro files run
  have hseat : (standard {})[0]? = some books := rfl
  have hrun : run.violation = none := (run_of_provided (provided_standard {}) {} files).1
  exact ⟨hseat, hrun, (report_of_tags hseat hrun).trans (by decide +kernel)⟩

end Rules
end WorldAudit
