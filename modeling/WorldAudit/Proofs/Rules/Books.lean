import WorldAudit.Proofs.Markup.Naming
import WorldAudit.Proofs.Text.Unbroken
import WorldAudit.Rules.Books
/-!
# Books — what is said of the text of a book

A reader of events remembers whether the last tag of all is an image that opens (`inImage_ofEvents`), and the last text
after which no tag opens (`invisible_ofEvents`).  What is said of a text cites pieces of it (`Cited`); all else in it is
on one line, so it is on one line itself exactly if these pieces are (`unbroken_bookSayings_iff`).
-/
namespace WorldAudit

/-- The names of tags that the message of a fault cites. -/
def Markup.Fault.tags : Markup.Fault → List String
  | .stray _ _ | .tagEndExpected _ => []
  | .mismatchedClose tag expected _ => [tag, expected]
  | .unfinishedOpen tag _ | .unfinishedClose tag _ => [tag]

namespace Rules

open Markup (Event IsTagName)
open Text (Unbroken unbroken_append unbroken_append_left unbroken_append_right unbroken_nat)

/-- A tag, whether it opens or closes. -/
def isTag : Event → Bool
  | .opened _ | .closed _ => true
  | .attribute _ _ | .text _ => false

/-- What decides which text comes after the last tag that opens. -/
def setsInvisible : Event → Bool
  | .opened _ | .text _ => true
  | .attribute _ _ | .closed _ => false

theorem getLast?_filter_concat {α : Type} (p : α → Bool) (l : List α) (a : α) :
    ((l ++ [a]).filter p).getLast? = if p a then some a else (l.filter p).getLast? := by
  cases h : p a <;> simp [List.filter_append, h]

namespace BookReading

/-- The reading of events from the start. -/
def ofEvents (es : List Event) : BookReading := es.foldl read start

theorem ofEvents_concat (es : List Event) (e : Event) : ofEvents (es ++ [e]) = (ofEvents es).read e := by
  rw [ofEvents, List.foldl_append]
  rfl

/-- What an event adds to the problems, inside an image or not. -/
def problems? (inImage : Bool) : Event → List String
  | .opened tag => if knows tag then [] else [s!"contains invalid HTML opening tag <{tag}>"]
  | .attribute name value =>
    if inImage && Text.equalFold name "src" && value.toList.contains '/' then [s!"contains invalid IMG SRC {value}"]
    else []
  | .text _ => []
  | .closed tag => if knows tag then [] else [s!"contains invalid HTML closing tag </{tag}>"]

theorem problems_read (b : BookReading) (e : Event) : (b.read e).problems = b.problems ++ problems? b.inImage e := by
  cases e with
  | text content => exact (List.append_nil _).symm
  | opened tag => cases h : knows tag <;> simp [read, addIf, problems?, h]
  | closed tag => cases h : knows tag <;> simp [read, addIf, problems?, h]
  | «attribute» name value =>
    simp only [read, addIf, problems?]
    split <;> simp

theorem inImage_ofEvents (es : List Event) :
    (ofEvents es).inImage = match (es.filter isTag).getLast? with
      | some (.opened tag) => Text.equalFold tag "img"
      | _ => false := by
  induction es using List.reverseRecOn with
  | nil => rfl
  | append_singleton es e ih =>
    rw [ofEvents_concat, getLast?_filter_concat]
    cases e with
    | opened tag => rfl
    | closed tag => rfl
    | text content => exact ih
    | «attribute» name value =>
      refine Eq.trans ?_ ih
      rw [read, addIf]
      split <;> rfl

theorem invisible_ofEvents (es : List Event) :
    (ofEvents es).invisible = match (es.filter setsInvisible).getLast? with
      | some (.text content) => String.ofList (Text.trim content.toList)
      | _ => "" := by
  induction es using List.reverseRecOn with
  | nil => rfl
  | append_singleton es e ih =>
    rw [ofEvents_concat, getLast?_filter_concat]
    cases e with
    | opened tag => rfl
    | text content => rfl
    | closed tag =>
      refine Eq.trans ?_ ih
      rw [read, addIf]
      split <;> rfl
    | «attribute» name value =>
      refine Eq.trans ?_ ih
      rw [read, addIf]
      split <;> rfl

/-- **Every problem is that of an event**, after the events before it. -/
theorem mem_problems_ofEvents {es : List Event} {m : String} :
    m ∈ (ofEvents es).problems ↔
      ∃ front e back, es = front ++ e :: back ∧ m ∈ problems? (ofEvents front).inImage e := by
  induction es using List.reverseRecOn with
  | nil => simp [ofEvents, start]
  | append_singleton es e ih =>
    rw [ofEvents_concat, problems_read, List.mem_append, ih]
    constructor
    · rintro (⟨front, d, back, rfl, hm⟩ | hm)
      · exact ⟨front, d, back ++ [e], by simp, hm⟩
      · exact ⟨es, e, [], rfl, hm⟩
    · rintro ⟨front, d, back, heq, hm⟩
      rcases List.eq_nil_or_concat back with rfl | ⟨back, d', rfl⟩
      · obtain ⟨rfl, hlast⟩ := List.append_inj' heq rfl
        cases hlast
        exact .inr hm
      · rw [List.concat_eq_append, ← List.cons_append, ← List.append_assoc] at heq
        obtain ⟨rfl, -⟩ := List.append_inj' heq rfl
        exact .inl ⟨front, d, back, rfl, hm⟩

end BookReading

open BookReading

/-- All that the rule for books says of a text: what is wrong with it, or why it is no markup. -/
def bookSayings (text : String) : List String :=
  match bookMessages text with
  | .ok messages => messages
  | .error fault => [(Rule.Fault.markup fault).message]

/-- **A piece of a text that is cited in what is said of it**, the names of its tags aside. -/
inductive Cited (text : String) : String → Prop
  | mismatchedClose {tag expected : String} {index : Nat}
    (h : (Markup.scan text).fault = some (.mismatchedClose tag expected index)) : Cited text tag
  | unfinishedClose {tag : String} {index : Nat}
    (h : (Markup.scan text).fault = some (.unfinishedClose tag index)) : Cited text tag
  | source {front back : List Event} {tag name value : String}
    (h : Markup.scan text = ⟨front ++ .attribute name value :: back, none⟩)
    (htag : (front.filter isTag).getLast? = some (.opened tag)) (himage : Text.equalFold tag "img" = true)
    (hname : Text.equalFold name "src" = true) (hpath : '/' ∈ value.toList) : Cited text value
  | invisible {es : List Event} {content : String} (h : Markup.scan text = ⟨es, none⟩)
    (hlast : (es.filter setsInvisible).getLast? = some (.text content)) :
    Cited text (String.ofList (Text.trim content.toList))

theorem unbroken_of_isTagName {name : String} (h : IsTagName name) : Unbroken name :=
  Text.unbroken_iff.2 fun hmem => absurd (h '\n' hmem) (by decide)

theorem unbroken_message_iff (fault : Markup.Fault) :
    Unbroken fault.message ↔ ∀ tag ∈ fault.tags, Unbroken tag := by
  cases fault with
  | stray found index =>
    have hfound : Unbroken found.text := by cases found <;> decide
    refine iff_of_true ?_ fun _ ht => absurd ht List.not_mem_nil
    show Unbroken ("Unexpected " ++ found.text ++ " at index " ++ toString index)
    rwa [unbroken_append_left (unbroken_nat index), unbroken_append_left (by decide),
      unbroken_append_right (by decide)]
  | tagEndExpected index =>
    refine iff_of_true ?_ fun _ ht => absurd ht List.not_mem_nil
    exact unbroken_append.2 ⟨by decide, unbroken_nat index⟩
  | mismatchedClose tag expected index =>
    show Unbroken ("Unexpected </" ++ tag ++ "> expected </" ++ expected ++ "> at index " ++ toString index) ↔ _
    rw [unbroken_append_left (unbroken_nat index), unbroken_append_left (by decide), unbroken_append,
      unbroken_append_left (by decide), unbroken_append_right (by decide)]
    simp [Markup.Fault.tags]
  | unfinishedOpen tag index =>
    show Unbroken ("Unfinished opening tag <" ++ tag ++ " at index " ++ toString index) ↔ _
    rw [unbroken_append_left (unbroken_nat index), unbroken_append_left (by decide),
      unbroken_append_right (by decide)]
    exact List.forall_mem_singleton.symm
  | unfinishedClose tag index =>
    show Unbroken ("Unfinished closing tag </" ++ tag ++ " at index " ++ toString index) ↔ _
    rw [unbroken_append_left (unbroken_nat index), unbroken_append_left (by decide),
      unbroken_append_right (by decide)]
    exact List.forall_mem_singleton.symm

theorem unbroken_messages_iff {b : BookReading} :
    (∀ m ∈ b.messages, Unbroken m) ↔ (∀ m ∈ b.problems, Unbroken m) ∧ Unbroken b.invisible := by
  rw [messages, List.forall_mem_append, and_congr_right_iff]
  intro _
  split
  · rename_i hempty
    rw [String.isEmpty_iff.1 hempty]
    exact iff_of_true (fun _ hm => absurd hm List.not_mem_nil) (by decide)
  · rw [List.forall_mem_singleton]
    exact unbroken_append_right (by decide)

section Sayings

variable {text : String}

/-- A fault is told on one line unless it cites a closing tag that is not on one line. -/
theorem unbroken_fault_iff {fault : Markup.Fault} (h : (Markup.scan text).fault = some fault) :
    Unbroken (Rule.Fault.markup fault).message ↔ ∀ piece, Cited text piece → Unbroken piece := by
  rw [show (Rule.Fault.markup fault).message = "contains malformed markup (" ++ fault.message ++ ")" from rfl,
    unbroken_append_left (by decide), unbroken_append_right (by decide), unbroken_message_iff]
  constructor
  · rintro htags piece (⟨h'⟩ | ⟨h'⟩ | ⟨h', -, -, -, -⟩ | ⟨h', -⟩)
    · obtain rfl := Option.some.inj (h.symm.trans h')
      exact htags piece List.mem_cons_self
    · obtain rfl := Option.some.inj (h.symm.trans h')
      exact htags piece List.mem_cons_self
    · rw [h'] at h
      cases h
    · rw [h'] at h
      cases h
  · intro hcited name hname
    cases fault with
    | stray found index => cases hname
    | tagEndExpected index => cases hname
    | mismatchedClose tag expected index =>
      rcases List.mem_cons.1 hname with rfl | hname
      · exact hcited name (.mismatchedClose h)
      · rw [List.mem_singleton.1 hname]
        exact unbroken_of_isTagName (Markup.isTagName_of_mismatchedClose h)
    | unfinishedOpen tag index =>
      rw [List.mem_singleton.1 hname]
      exact unbroken_of_isTagName (Markup.isTagName_of_unfinishedOpen h)
    | unfinishedClose tag index =>
      rw [List.mem_singleton.1 hname]
      exact hcited tag (.unfinishedClose h)

variable {es : List Event} (h : Markup.scan text = ⟨es, none⟩)

include h

/-- The problems of tags and images are told on one line if the sources cited are on one line. -/
theorem unbroken_of_mem_problems (hcited : ∀ piece, Cited text piece → Unbroken piece) {m : String}
    (hproblem : m ∈ (ofEvents es).problems) : Unbroken m := by
  obtain ⟨front, e, back, rfl, hm⟩ := mem_problems_ofEvents.1 hproblem
  have hnames : e.Names := Markup.names_events text e (by rw [h]; simp)
  cases e with
  | text content => cases hm
  | opened tag =>
    rw [problems?] at hm
    split at hm
    · cases hm
    · rw [List.mem_singleton.1 hm]
      exact unbroken_append.2 ⟨unbroken_append.2 ⟨by decide, unbroken_of_isTagName hnames⟩, by decide⟩
  | closed tag =>
    rw [problems?] at hm
    split at hm
    · cases hm
    · rw [List.mem_singleton.1 hm]
      exact unbroken_append.2 ⟨unbroken_append.2 ⟨by decide, unbroken_of_isTagName hnames⟩, by decide⟩
  | «attribute» name value =>
    rw [problems?] at hm
    split at hm
    · rename_i hcond
      simp only [Bool.and_eq_true] at hcond
      obtain ⟨⟨himage, hname⟩, hpath⟩ := hcond
      rw [inImage_ofEvents] at himage
      split at himage
      · rename_i tag htag
        rw [List.mem_singleton.1 hm]
        exact unbroken_append.2
          ⟨by decide, hcited value (.source h htag himage hname (List.contains_iff_mem.1 hpath))⟩
      · cases himage
    · cases hm

theorem unbroken_messages_ofEvents_iff :
    (∀ m ∈ (ofEvents es).messages, Unbroken m) ↔ ∀ piece, Cited text piece → Unbroken piece := by
  constructor
  · rintro hmessages piece (⟨h'⟩ | ⟨h'⟩ | ⟨h', htag, himage, hname, hpath⟩ | ⟨h', hlast⟩)
    · rw [h] at h'
      cases h'
    · rw [h] at h'
      cases h'
    · obtain ⟨rfl, -⟩ := Markup.Scan.mk.inj (h.symm.trans h')
      rename_i front back tag name
      have hsource :
          s!"contains invalid IMG SRC {piece}" ∈ problems? (ofEvents front).inImage (.attribute name piece) := by
        have hinImage : (ofEvents front).inImage = true := by rw [inImage_ofEvents, htag]; exact himage
        rw [problems?, hinImage, hname, List.contains_iff_mem.2 hpath]
        exact List.mem_singleton.2 rfl
      have hm := mem_problems_ofEvents.2 ⟨front, .attribute name piece, back, rfl, hsource⟩
      exact (unbroken_append_right (by decide)).1 ((unbroken_messages_iff.1 hmessages).1 _ hm)
    · obtain ⟨rfl, -⟩ := Markup.Scan.mk.inj (h.symm.trans h')
      have hinvisible := (unbroken_messages_iff.1 hmessages).2
      rwa [invisible_ofEvents, hlast] at hinvisible
  · refine fun hcited => unbroken_messages_iff.2 ⟨fun m hm => unbroken_of_mem_problems h hcited hm, ?_⟩
    rw [invisible_ofEvents]
    split
    · rename_i content hlast
      exact hcited _ (.invisible h hlast)
    · decide

end Sayings

theorem bookSayings_of_fault {text : String} {fault : Markup.Fault} (h : (Markup.scan text).fault = some fault) :
    bookSayings text = [(Rule.Fault.markup fault).message] := by
  rw [bookSayings, bookMessages]
  simp only [h]

theorem bookSayings_of_accepted {text : String} (h : (Markup.scan text).fault = none) :
    bookSayings text = (ofEvents (Markup.scan text).events).messages := by
  rw [bookSayings, bookMessages]
  simp only [h]
  rfl

theorem unbroken_bookSayings_iff (text : String) :
    (∀ m ∈ bookSayings text, Unbroken m) ↔ ∀ piece, Cited text piece → Unbroken piece := by
  cases hfault : (Markup.scan text).fault with
  | some fault =>
    rw [bookSayings_of_fault hfault, List.forall_mem_singleton]
    exact unbroken_fault_iff hfault
  | none =>
    have hscan : Markup.scan text = ⟨(Markup.scan text).events, none⟩ := by rw [← hfault]
    rw [bookSayings_of_accepted hfault]
    exact unbroken_messages_ofEvents_iff hscan

end Rules
end WorldAudit
