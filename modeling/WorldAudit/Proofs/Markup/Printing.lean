import WorldAudit.Proofs.Markup.Acceptance
/-!
# Printing — events as markup again

Events are printed one after another: a tag that opens with its attributes in quotes, text as it stands, and a closing
tag for whatever has been closed.  The events of an accepted text are coherent (`coherent_events`), and coherent events
are what is read where they are printed (`reads_print`), so print and scan undo each other (`print_round_trip`).
-/
namespace WorldAudit
namespace Markup

namespace Event

def isAttribute : Event → Bool
  | .attribute _ _ => true
  | _ => false

def isText : Event → Bool
  | .text _ => true
  | _ => false

/-- Whether attributes may follow. -/
def inTag : Event → Bool
  | .opened _ | .attribute _ _ => true
  | .text _ | .closed _ => false

/-- An event as markup; a tag that opens still lacks its end. -/
def chars : Event → List Char
  | .opened tag => '<' :: tag.toList
  | .attribute name value => ' ' :: name.toList ++ '=' :: '"' :: value.toList ++ ['"']
  | .text content => content.toList
  | .closed tag => '<' :: '/' :: tag.toList ++ ['>']

def WellFormed : Event → Prop
  | .opened tag => ∀ c ∈ tag.toList, inTagName c = true
  | .attribute name value =>
    (name.toList ≠ [] ∧ ∀ c ∈ name.toList, inName c = true) ∧ ∀ c ∈ value.toList, (c != '"') = true
  | .text content => content.toList ≠ [] ∧ ∀ c ∈ content.toList, (c != '<') = true
  | .closed _ => True

/-- **What may follow an event**: attributes follow their tag or one another, and text does not follow text. -/
def Precedes (e next : Event) : Prop :=
  (next.isAttribute = true → e.inTag = true) ∧ ¬(e.isText = true ∧ next.isText = true)

/-- The open elements after an event, innermost first; none if it closes what is not open. -/
def opensAfter (stack : List String) : Event → Option (List String)
  | .opened tag => some (tag :: stack)
  | .closed tag => if tag ∈ stack then some (stack.dropWhile (· != tag)).tail else none
  | .attribute _ _ | .text _ => some stack

end Event

/-- Events as markup.  A tag begun before them (`inTag`) ends where its attributes do. -/
def printFrom (inTag : Bool) : List Event → List Char
  | [] => if inTag then ['>'] else []
  | e :: es => (if inTag && !e.isAttribute then ['>'] else []) ++ (e.chars ++ printFrom e.inTag es)

def print (es : List Event) : String := String.ofList (printFrom false es)

/-- **Events that may follow where some elements are open**, and inside a tag or not. -/
structure CoherentFrom (inTag : Bool) (stack : List String) (es : List Event) : Prop where
  each : ∀ e ∈ es, e.WellFormed
  led : ∀ e ∈ es.head?, e.isAttribute = true → inTag = true
  apart : es.IsChain Event.Precedes
  closes : (es.foldlM Event.opensAfter stack).isSome = true

/-- **The events of a whole text.** -/
def Coherent (es : List Event) : Prop := CoherentFrom false [] es

theorem CoherentFrom.nil (inTag : Bool) (stack : List String) : CoherentFrom inTag stack [] :=
  ⟨by simp, by simp, .nil, rfl⟩

theorem coherentFrom_cons {inTag : Bool} {stack : List String} {e : Event} {es : List Event} :
    CoherentFrom inTag stack (e :: es) ↔
      e.WellFormed ∧ (e.isAttribute = true → inTag = true) ∧
      (∀ next ∈ es.head?, ¬(e.isText = true ∧ next.isText = true)) ∧
      ∃ stack', e.opensAfter stack = some stack' ∧ CoherentFrom e.inTag stack' es := by
  constructor
  · intro h
    obtain ⟨hnext, hapart⟩ := List.isChain_cons.1 h.apart
    have hcloses := h.closes
    rw [List.foldlM_cons] at hcloses
    cases ho : e.opensAfter stack with
    | none => rw [ho] at hcloses; cases hcloses
    | some stack' =>
      rw [ho] at hcloses
      exact ⟨h.each e List.mem_cons_self, h.led e rfl, fun next hn => (hnext next hn).2, stack', rfl,
        fun e' he => h.each e' (List.mem_cons_of_mem e he), fun next hn => (hnext next hn).1, hapart, hcloses⟩
  · rintro ⟨he, hled, htexts, stack', ho, h⟩
    refine ⟨fun e' he' => ?_, fun e' he' => ?_, ?_, ?_⟩
    · rcases List.mem_cons.1 he' with rfl | he'
      · exact he
      · exact h.each e' he'
    · cases he'
      exact hled
    · exact List.isChain_cons.2 ⟨fun next hn => ⟨h.led next hn, htexts next hn⟩, h.apart⟩
    · rw [List.foldlM_cons, ho]
      exact h.closes

theorem CoherentFrom.inTag_of_false {stack : List String} {es : List Event} (h : CoherentFrom false stack es) :
    CoherentFrom true stack es :=
  ⟨h.each, fun _ _ _ => rfl, h.apart, h.closes⟩

/-! ## Coherent events are read -/

/-- **What is read inside the head of a tag**, with and without white space behind its name. -/
def ReadsInTag (stack : List String) (tag : Name) (cs : List Char) (es : List Event) : Prop :=
  Reads stack (.attributes tag []) cs es ∧ Reads stack (.openName tag) cs (.opened tag.text :: es)

section Reading

variable {stack : List String} {tag : Name} {cs : List Char} {es : List Event}

theorem readsInTag_end (h : Reads (tag.text :: stack) (.text []) cs es) : ReadsInTag stack tag ('>' :: cs) es :=
  ⟨Reads.silent (fun _ => rfl) h, Reads.told (fun _ => rfl) h⟩

theorem readsInTag_attribute {name value : String} (he : (Event.attribute name value).WellFormed) {c : Char}
    (h : Reads stack (.attributes tag []) (c :: cs) es) :
    ReadsInTag stack tag ((Event.attribute name value).chars ++ c :: cs) (.attribute name value :: es) := by
  have hwf : (Item.quoted name.toList value.toList).WellFormed := he
  have hitem : Reads stack (.attributes tag []) ((Item.quoted name.toList value.toList).chars ++ c :: cs)
      (.attribute (String.ofList name.toList) (String.ofList value.toList) :: es) := reads_item hwf (.inl rfl) h
  rw [String.ofList_toList, String.ofList_toList] at hitem
  exact ⟨Reads.silent (fun _ => rfl) hitem, Reads.told (fun _ => rfl) hitem⟩

theorem reads_opened {name : String} (he : (Event.opened name).WellFormed)
    (h : ∀ tag : Name, tag.text = name → ReadsInTag stack tag cs es) :
    Reads stack (.text []) ((Event.opened name).chars ++ cs) (.opened name :: es) := by
  refine Reads.silent (fun _ => rfl) (Reads.run collects_tagName name.toList [] he ?_ _ ⟨.empty, rfl, rfl⟩)
  rintro mode ⟨tag, htag, rfl⟩
  have htext : tag.text = name := by rw [text_of_chars htag, String.ofList_toList]
  have := (h tag htext).2
  rwa [htext] at this

theorem reads_closed {name : String} (hname : ∀ c ∈ name.toList, inTagName c = true) {stack' : List String}
    (hopens : (Event.closed name).opensAfter stack = some stack') (h : Reads stack' (.text []) cs es) :
    Reads stack (.text []) ((Event.closed name).chars ++ cs) (.closed name :: es) := by
  have htag : (Tag.closing name.toList).WellFormed := fun c hc => by
    have := hname c hc
    simp only [inTagName, Bool.and_eq_true] at this
    exact this.1.2
  have hopens' : (Tag.closing name.toList).opensAfter stack = some stack' := by
    rw [Tag.opensAfter, String.ofList_toList]
    exact hopens
  have := reads_tag htag hopens' h
  rwa [Tag.events, String.ofList_toList] at this

/-- Text is read where a tag or the end follows. -/
theorem reads_plain {content : String} (he : (Event.text content).WellFormed)
    (hcs : cs = [] ∨ ∃ cs', cs = '<' :: cs') (h : Reads stack (.text []) cs es) :
    Reads stack (.text []) ((Event.text content).chars ++ cs) (.text content :: es) := by
  have htext : textEvents (content.toList.reverse ++ []) = [.text content] := by
    rw [textEvents_reverse, plainEvents, if_neg he.1, String.ofList_toList]
  refine Reads.run collects_text content.toList [] he.2 ?_ _ rfl
  rintro mode rfl
  rcases hcs with rfl | ⟨cs', rfl⟩
  · intro i
    have hi := h i
    rw [State.scan, Mode.finish] at hi ⊢
    rw [htext]
    cases hi
    rfl
  · rw [show Event.text content :: es = [.text content] ++ es from rfl, ← htext]
    refine Reads.owed (fun i => ?_) h
    rw [move, move, if_pos rfl, if_pos rfl]
    simp [Except.map, Move.after, textEvents]

end Reading

theorem printFrom_true {es : List Event} (h : ∀ e ∈ es.head?, e.isAttribute = false) :
    printFrom true es = '>' :: printFrom false es := by
  cases es with
  | nil => rfl
  | cons e es =>
    have he := h e rfl
    rw [printFrom, printFrom, he]
    rfl

theorem exists_printFrom_true (es : List Event) : ∃ c cs, printFrom true es = c :: cs := by
  cases es with
  | nil => exact ⟨_, _, rfl⟩
  | cons e es => cases e <;> exact ⟨_, _, rfl⟩

/-- Outside of tags what is printed begins with a tag, unless it begins with text. -/
theorem printFrom_false {es : List Event} (hled : ∀ e ∈ es.head?, e.isAttribute = true → false = true)
    (htext : ∀ e ∈ es.head?, e.isText = false) : printFrom false es = [] ∨ ∃ cs, printFrom false es = '<' :: cs := by
  cases es with
  | nil => exact .inl rfl
  | cons e es =>
    cases e with
    | opened tag => exact .inr ⟨_, rfl⟩
    | closed tag => exact .inr ⟨_, rfl⟩
    | «attribute» name value => exact absurd (hled _ rfl rfl) Bool.false_ne_true
    | text content => exact absurd (htext _ rfl) (by simp [Event.isText])

/-- **Coherent events are what is read where they are printed**, outside of tags and inside the head of one.  The names
of the open elements are names of tags, so that closing tags can be read. -/
theorem reads_print : ∀ (es : List Event) (stack : List String),
    (∀ name ∈ stack, ∀ c ∈ name.toList, inTagName c = true) →
      (CoherentFrom false stack es → Reads stack (.text []) (printFrom false es) es) ∧
      ∀ (tag : Name) (rest : List String), stack = tag.text :: rest → CoherentFrom true stack es →
        ReadsInTag rest tag (printFrom true es) es
  | [], stack, _ => by
    refine ⟨fun _ _ => rfl, fun tag rest _ _ => readsInTag_end fun _ => rfl⟩
  | e :: es, stack, hstack => by
    have houtside : CoherentFrom false stack (e :: es) → Reads stack (.text []) (printFrom false (e :: es)) (e :: es) := by
      intro h
      obtain ⟨he, hled, htexts, stack', hopens, hrest⟩ := coherentFrom_cons.1 h
      cases e with
      | opened name =>
        cases hopens
        have ih := reads_print es (name :: stack) (List.forall_mem_cons.2 ⟨he, hstack⟩)
        exact reads_opened he fun tag htag => ih.2 tag stack (by rw [htag]) hrest
      | «attribute» name value => exact absurd (hled rfl) Bool.false_ne_true
      | text content =>
        cases hopens
        have hnext : ∀ next ∈ es.head?, next.isText = false := fun next hn => by
          simpa [Event.isText] using htexts next hn
        exact reads_plain he (printFrom_false hrest.led hnext) ((reads_print es stack hstack).1 hrest)
      | closed name =>
        have hopens' := hopens
        rw [Event.opensAfter] at hopens'
        split at hopens'
        · rename_i hmem
          cases hopens'
          have hsub : ∀ name' ∈ (stack.dropWhile (· != name)).tail, ∀ c ∈ name'.toList, inTagName c = true :=
            fun name' hn => hstack name' ((List.dropWhile_sublist _).subset (List.mem_of_mem_tail hn))
          exact reads_closed (hstack name hmem) hopens ((reads_print es _ hsub).1 hrest)
        · cases hopens'
    refine ⟨houtside, fun tag rest hst h => ?_⟩
    cases ha : e.isAttribute with
    | true =>
      obtain ⟨he, _, _, stack', hopens, hrest⟩ := coherentFrom_cons.1 h
      cases e with
      | «attribute» name value =>
        cases hopens
        obtain ⟨c, cs, hcs⟩ := exists_printFrom_true es
        have ih := ((reads_print es stack hstack).2 tag rest hst hrest).1
        rw [hcs] at ih
        have := readsInTag_attribute he ih
        rw [← hcs] at this
        exact this
      | _ => cases ha
    | false =>
      have hhead : ∀ e' ∈ (e :: es).head?, e'.isAttribute = false := fun e' he' => by cases he'; exact ha
      have hfalse : CoherentFrom false stack (e :: es) :=
        ⟨h.each, fun e' he' ht => absurd (ht.symm.trans (hhead e' he')) (by simp), h.apart, h.closes⟩
      rw [printFrom_true hhead]
      exact readsInTag_end (hst ▸ houtside hfalse)

theorem scan_print {es : List Event} (h : Coherent es) : scan (print es) = ⟨es, none⟩ := by
  rw [scan, print, String.toList_ofList]
  exact (reads_print es [] fun _ hn => absurd hn List.not_mem_nil).1 h 0

/-! ## What is read is coherent -/

theorem coherentFrom_items {stack : List String} {es : List Event} (h : CoherentFrom false stack es) :
    ∀ (items : List Item), (∀ item ∈ items, item.WellFormed) → CoherentFrom true stack (itemEvents items ++ es)
  | [], _ => h.inTag_of_false
  | item :: items, hitems => by
    have hrest := coherentFrom_items h items fun i hi => hitems i (List.mem_cons_of_mem item hi)
    have hitem := hitems item List.mem_cons_self
    have hattribute : ∀ name value : List Char,
        ((name ≠ [] ∧ ∀ c ∈ name, inName c = true) ∧ ∀ c ∈ value, (c != '"') = true) →
        CoherentFrom true stack (.attribute (String.ofList name) (String.ofList value) :: (itemEvents items ++ es)) :=
      fun name value hwf => by
        refine coherentFrom_cons.2 ⟨?_, fun _ => rfl, fun _ _ ht => Bool.false_ne_true ht.1, stack, rfl, hrest⟩
        rw [Event.WellFormed, String.toList_ofList, String.toList_ofList]
        exact hwf
    cases item with
    | blank c => exact hrest
    | flag name => exact hattribute name [] ⟨hitem, fun _ hc => absurd hc List.not_mem_nil⟩
    | quoted name value => exact hattribute name value hitem
    | bare name value =>
      refine hattribute name value ⟨hitem.1, fun c hc => ?_⟩
      have := hitem.2 c hc
      simp only [inBare, Bool.and_eq_true] at this
      exact this.1.1.1

theorem coherentFrom_opened {stack : List String} {name : List Char} {items : List Item} {es : List Event}
    (hname : ∀ c ∈ name, inTagName c = true) (hitems : WellLaid items)
    (h : CoherentFrom false (String.ofList name :: stack) es) :
    CoherentFrom false stack (.opened (String.ofList name) :: (itemEvents items ++ es)) := by
  refine coherentFrom_cons.2 ⟨?_, fun h => absurd h Bool.false_ne_true, fun _ _ ht => Bool.false_ne_true ht.1, _, rfl,
    coherentFrom_items h items hitems.each⟩
  rw [Event.WellFormed, String.toList_ofList]
  exact hname

theorem coherentFrom_closed {stack stack' : List String} {name : String} {es : List Event}
    (hopens : (Event.closed name).opensAfter stack = some stack') (h : CoherentFrom false stack' es) :
    CoherentFrom false stack (.closed name :: es) :=
  coherentFrom_cons.2
    ⟨trivial, fun h => absurd h Bool.false_ne_true, fun _ _ ht => Bool.false_ne_true ht.1, stack', hopens, h⟩

/-- **The events of a tag are coherent** where the tag may stand.  A tag that closes itself opens its element for its
attributes only. -/
theorem coherentFrom_tag {stack stack' : List String} {tag : Tag} {es : List Event} (htag : tag.WellFormed)
    (hopens : tag.opensAfter stack = some stack') (h : CoherentFrom false stack' es) :
    CoherentFrom false stack (tag.events ++ es) := by
  cases tag with
  | opening name items =>
    cases hopens
    exact coherentFrom_opened htag.1 htag.2 h
  | selfClosing name items =>
    cases hopens
    have hpop : (Event.closed (String.ofList name)).opensAfter (String.ofList name :: stack) = some stack := by
      simp [Event.opensAfter]
    have := coherentFrom_opened htag.1 htag.2.1 (coherentFrom_closed hpop h)
    simpa [Tag.events] using this
  | closing name => exact coherentFrom_closed hopens h

theorem isText_of_head?_tag {tag : Tag} {es : List Event} : ∀ e ∈ (tag.events ++ es).head?, e.isText = false := by
  intro e he
  cases tag <;> cases he <;> rfl

theorem coherentFrom_plain {stack : List String} {text : List Char} {es : List Event}
    (htext : ∀ c ∈ text, (c != '<') = true) (hnext : ∀ e ∈ es.head?, e.isText = false)
    (h : CoherentFrom false stack es) : CoherentFrom false stack (plainEvents text ++ es) := by
  unfold plainEvents
  split
  · exact h
  · rename_i hne
    refine coherentFrom_cons.2
      ⟨?_, fun h => absurd h Bool.false_ne_true, fun next hn ht => ?_, stack, rfl, h⟩
    · rw [Event.WellFormed, String.toList_ofList]
      exact ⟨hne, htext⟩
    · rw [hnext next hn] at ht
      exact Bool.false_ne_true ht.2

theorem coherentFrom_document (rest : List Char) : ∀ (parts : List (List Char × Tag)) {stack : List String},
    Document.WellFormed stack ⟨parts, rest⟩ → CoherentFrom false stack (Document.events ⟨parts, rest⟩)
  | [], stack, h => by
    have := coherentFrom_plain h.rest (fun _ he => by cases he) (.nil false stack)
    rwa [List.append_nil] at this
  | (text, tag) :: parts, stack, h => by
    obtain ⟨htext, htag, stack', hopens, hrest⟩ := (Document.wellFormed_cons (d := ⟨parts, rest⟩)).1 h
    have := coherentFrom_plain htext isText_of_head?_tag
      (coherentFrom_tag htag hopens (coherentFrom_document rest parts hrest))
    rwa [← Document.events_cons] at this

/-- **The events of an accepted text are coherent.** -/
theorem coherent_events {text : String} (h : (scan text).fault = none) : Coherent (scan text).events := by
  obtain ⟨d, hd, _, hevents⟩ := exists_document h
  rw [← hevents]
  exact coherentFrom_document d.rest d.parts hd

/-! ## There and back -/

/-- **Print and scan undo each other.**  Coherent events are read from what is printed of them, without fault; what is
read of an accepted text is coherent; so an accepted text has the events of the one that is printed of them. -/
theorem print_round_trip :
    (∀ es : List Event, Coherent es → scan (print es) = ⟨es, none⟩) ∧
    ∀ text : String, (scan text).fault = none →
      Coherent (scan text).events ∧ scan (print (scan text).events) = scan text := by
  refine ⟨fun es => scan_print, fun text h => ⟨coherent_events h, ?_⟩⟩
  rw [scan_print (coherent_events h), ← h]

/-- Tags of all forms, interleaved, one of them without a name and one left open. -/
theorem print_normal_form :
    let text := "a<b x=1 y><i/>< z=\"<\"><u></b>"
    (scan text).fault = none ∧
    print (scan text).events = "a<b x=\"1\" y=\"\"><i></i>< z=\"<\"><u></b>" ∧
    scan (print (scan text).events) = scan text := by
  intro text
  have hfault : (scan text).fault = none := by decide +kernel
  have hprint : printFrom false (scan text).events = "a<b x=\"1\" y=\"\"><i></i>< z=\"<\"><u></b>".toList := by
    decide +kernel
  refine ⟨hfault, ?_, (print_round_trip.2 text hfault).2⟩
  rw [print, hprint, String.ofList_toList]

end Markup
end WorldAudit
