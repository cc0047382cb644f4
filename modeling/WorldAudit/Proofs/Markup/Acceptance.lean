import WorldAudit.Proofs.Markup.Reading
/-!
# Acceptance — a scan accepts the documents and nothing else

Whatever a mode has read since the last tag is the beginning of a text and a tag (`Stands`), and a character that is no
fault continues it or completes it.  So what is left of an accepted text is a document, at every place
(`document_of_scan`); with the other direction, the texts without fault are the well-formed documents.
-/
namespace WorldAudit
namespace Markup

/-! ## Items -/

/-- Items of a tag after which anything may stand. -/
structure Begun (items : List Item) : Prop where
  laid : WellLaid items
  ended : ∀ item ∈ items.getLast?, item.isEnded = true
  nonempty : items ≠ []

theorem WellLaid.nil : WellLaid [] := ⟨by simp, .nil, by simp⟩

theorem WellLaid.concat {items : List Item} (h : WellLaid items) (hne : items ≠ []) {item : Item}
    (hitem : item.WellFormed) (hlast : ∀ last ∈ items.getLast?, last.Precedes item) : WellLaid (items ++ [item]) := by
  refine ⟨fun i hi => ?_, ?_, fun i hi => ?_⟩
  · rcases List.mem_append.1 hi with hi | hi
    · exact h.each i hi
    · exact List.mem_singleton.1 hi ▸ hitem
  · refine List.isChain_append.2 ⟨h.apart, List.isChain_singleton item, fun last hl next hn => ?_⟩
    cases hn
    exact hlast last hl
  · rw [List.head?_append_of_ne_nil _ hne] at hi
    exact h.led i hi

theorem Begun.blank {c : Char} (hc : Text.isBlank c = true) : Begun [.blank c] := by
  refine ⟨⟨fun i hi => ?_, List.isChain_singleton _, fun i hi => ?_⟩, fun i hi => ?_, by simp⟩
  · exact List.mem_singleton.1 hi ▸ hc
  · cases hi; rfl
  · cases hi; rfl

theorem Begun.concat {items : List Item} (h : Begun items) {item : Item} (hitem : item.WellFormed) :
    WellLaid (items ++ [item]) :=
  h.laid.concat h.nonempty hitem fun last hl => .inl (h.ended last hl)

theorem Begun.concat_ended {items : List Item} (h : Begun items) {item : Item} (hitem : item.WellFormed)
    (hended : item.isEnded = true) : Begun (items ++ [item]) := by
  refine ⟨h.concat hitem, fun i hi => ?_, by simp⟩
  rw [List.getLast?_concat] at hi
  cases hi
  exact hended

theorem WellLaid.concat_blank {items : List Item} (h : WellLaid items) (hne : items ≠ [])
    (hlast : ∀ last ∈ items.getLast?, last.mayEnd = true) {c : Char} (hc : Text.isBlank c = true) :
    Begun (items ++ [.blank c]) := by
  refine ⟨h.concat hne hc fun last hl => .inr ⟨rfl, hlast last hl⟩, fun i hi => ?_, by simp⟩
  rw [List.getLast?_concat] at hi
  cases hi
  rfl

theorem itemChars_concat (items : List Item) (item : Item) :
    itemChars (items ++ [item]) = itemChars items ++ item.chars := by
  rw [itemChars, List.flatMap_append, List.flatMap_singleton]
  rfl

theorem itemEvents_concat (items : List Item) (item : Item) :
    itemEvents (items ++ [item]) = itemEvents items ++ item.events := by
  rw [itemEvents, List.flatMap_append, List.flatMap_singleton]
  rfl

/-! ## What has been read -/

/-- **What a mode has read since the `<` of a tag**, and what it has told of it. -/
inductive Inside : Mode → List Char → List Event → Prop
  | openName {tag : Name} (htag : ∀ c ∈ tag.chars, inTagName c = true) :
    Inside (.openName tag) tag.chars.reverse []
  | attributes {tag : Name} {items : List Item} {name : List Char} (htag : ∀ c ∈ tag.chars, inTagName c = true)
    (hitems : Begun items) (hname : ∀ c ∈ name, inName c = true) :
    Inside (.attributes tag name) (tag.chars.reverse ++ (itemChars items ++ name.reverse))
      (.opened tag.text :: itemEvents items)
  | quoted {tag : Name} {items : List Item} {name value : List Char} (htag : ∀ c ∈ tag.chars, inTagName c = true)
    (hitems : Begun items) (hname : name ≠ [] ∧ ∀ c ∈ name, inName c = true) (hvalue : ∀ c ∈ value, (c != '"') = true) :
    Inside (.value tag name true value)
      (tag.chars.reverse ++ (itemChars items ++ (name.reverse ++ '=' :: '"' :: value.reverse)))
      (.opened tag.text :: itemEvents items)
  | bare {tag : Name} {items : List Item} {name value : List Char} (htag : ∀ c ∈ tag.chars, inTagName c = true)
    (hitems : Begun items) (hname : name ≠ [] ∧ ∀ c ∈ name, inName c = true) (hvalue : ∀ c ∈ value, inBare c = true) :
    Inside (.value tag name false value)
      (tag.chars.reverse ++ (itemChars items ++ (name.reverse ++ '=' :: value.reverse)))
      (.opened tag.text :: itemEvents items)
  | selfClosing {tag : Name} {items : List Item} (htag : ∀ c ∈ tag.chars, inTagName c = true) (hitems : WellLaid items)
    (hne : tag.chars ≠ [] ∨ items ≠ []) :
    Inside (.selfClosing tag) (tag.chars.reverse ++ (itemChars items ++ ['/'])) (.opened tag.text :: itemEvents items)
  | closeName {tag : Name} (htag : ∀ c ∈ tag.chars, (c != '>') = true) :
    Inside (.closeName tag) ('/' :: tag.chars.reverse) []

/-- **What a move inside a tag leads to**: it reads on in the tag, or it completes it. -/
def Leads (stack : List String) (cs : List Char) (es : List Event) (m : Move) : Prop :=
  (m.1 = stack ∧ Inside m.2.1 cs (es ++ m.2.2)) ∨
  ∃ tag : Tag, tag.WellFormed ∧ tag.opensAfter stack = some m.1 ∧ m.2.1 = .text [] ∧ '<' :: cs = tag.chars ∧
    es ++ m.2.2 = tag.events

theorem Leads.after {stack : List String} {cs : List Char} {es es' : List Event} {m : Move}
    (h : Leads stack cs (es ++ es') m) : Leads stack cs es (m.after es') := by
  unfold Leads at h ⊢
  rw [List.append_assoc] at h
  exact h

theorem forall_mem_reverse {p : Char → Bool} {cs : List Char} (h : ∀ c ∈ cs, p c = true) :
    ∀ c ∈ cs.reverse, p c = true := fun c hc => h c (List.mem_reverse.1 hc)

section Moves

variable {stack : List String} {tag : Name} {items : List Item} {name value : List Char} {i : Nat} {c : Char} {m : Move}

theorem leads_ending (htag : ∀ c ∈ tag.chars, inTagName c = true) (hitems : WellLaid items) (hne : items ≠ [])
    (hc : isTagEnd c ∨ (Text.isBlank c = true ∧ ∀ last ∈ items.getLast?, last.mayEnd = true))
    (hmove : move i stack c (.attributes tag []) = .ok m) :
    Leads stack (tag.chars.reverse ++ (itemChars items ++ [c])) (.opened tag.text :: itemEvents items) m := by
  rcases hc with (rfl | rfl) | ⟨hblank, hlast⟩
  · cases hmove
    refine .inl ⟨rfl, ?_⟩
    have := Inside.selfClosing htag hitems (.inr hne)
    simpa [attributeEvents] using this
  · cases hmove
    refine .inr ⟨.opening tag.chars.reverse items, ⟨forall_mem_reverse htag, hitems⟩, rfl, rfl, ?_, ?_⟩
    · simp [Tag.chars]
    · simp [Tag.events, attributeEvents, Name.text, collected]
  · rw [move_flag (.inr hblank), move, if_neg (ne_of_isBlank hblank rfl), if_neg (ne_of_isBlank hblank rfl),
      if_neg (ne_of_isBlank hblank rfl), if_pos hblank] at hmove
    cases hmove
    refine .inl ⟨rfl, ?_⟩
    have : Inside (.attributes tag []) _ _ :=
      .attributes htag (hitems.concat_blank hne hlast hblank) fun _ hc => absurd hc List.not_mem_nil
    rw [itemChars_concat, itemEvents_concat] at this
    simpa [attributeEvents, Move.after, Item.chars, Item.events] using this

/-- The end of an attribute that is begun ends it as an item. -/
theorem leads_item (htag : ∀ c ∈ tag.chars, inTagName c = true) (hitems : Begun items) (item : Item)
    (hitem : item.WellFormed) (hc : isTagEnd c ∨ (Text.isBlank c = true ∧ item.mayEnd = true)) {mode : Mode}
    (howed : move i stack c mode = (move i stack c (.attributes tag [])).map (Move.after item.events))
    (hmove : move i stack c mode = .ok m) :
    Leads stack (tag.chars.reverse ++ (itemChars items ++ (item.chars ++ [c])))
      (.opened tag.text :: itemEvents items) m := by
  rw [howed] at hmove
  cases hm : move i stack c (.attributes tag []) with
  | error fault => rw [hm] at hmove; cases hmove
  | ok m' =>
    rw [hm] at hmove
    cases hmove
    have hlast : ∀ last ∈ (items ++ [item]).getLast?, last = item := fun last hl => by
      rw [List.getLast?_concat] at hl
      cases hl
      rfl
    have := leads_ending htag (hitems.concat hitem) (by simp)
      (hc.imp_right fun h => ⟨h.1, fun last hl => hlast last hl ▸ h.2⟩) hm
    rw [itemChars_concat, itemEvents_concat, List.append_assoc] at this
    exact this.after

theorem leads_openName (htag : ∀ c ∈ tag.chars, inTagName c = true) (hmove : move i stack c (.openName tag) = .ok m) :
    Leads stack (tag.chars.reverse ++ [c]) [] m := by
  rw [move] at hmove
  split at hmove
  · rename_i hc
    subst hc
    split at hmove
    · rename_i hnil
      rw [List.isEmpty_iff] at hnil
      split at hmove
      · cases hmove
      · cases hmove
        have : Inside (.closeName tag) _ _ := .closeName fun c hc => absurd (hnil ▸ hc) List.not_mem_nil
        rw [hnil] at this ⊢
        exact .inl ⟨rfl, this⟩
    · rename_i hne
      cases hmove
      exact .inl ⟨rfl, .selfClosing htag .nil (.inl (by simpa using hne))⟩
  · rename_i hslash
    split at hmove
    · cases hmove
    · rename_i hless
      split at hmove
      · rename_i hc
        subst hc
        cases hmove
        refine .inr ⟨.opening tag.chars.reverse [], ⟨forall_mem_reverse htag, .nil⟩, rfl, rfl, ?_, rfl⟩
        simp [Tag.chars, itemChars]
      · rename_i hgreater
        split at hmove
        · rename_i hblank
          cases hmove
          exact .inl ⟨rfl, .attributes htag (.blank hblank) fun _ hc => absurd hc List.not_mem_nil⟩
        · rename_i hblank
          cases hmove
          have hc : inTagName c = true := by simp [inTagName, hslash, hless, hgreater, hblank]
          have : Inside (.openName (tag.push i c)) _ _ := .openName (List.forall_mem_cons.2 ⟨hc, htag⟩)
          refine .inl ⟨rfl, ?_⟩
          rwa [show (tag.push i c).chars = c :: tag.chars from rfl, List.reverse_cons] at this

theorem leads_attributes (htag : ∀ c ∈ tag.chars, inTagName c = true) (hitems : Begun items)
    (hname : ∀ c ∈ name, inName c = true) (hmove : move i stack c (.attributes tag name) = .ok m) :
    Leads stack (tag.chars.reverse ++ (itemChars items ++ (name.reverse ++ [c])))
      (.opened tag.text :: itemEvents items) m := by
  by_cases hends : isTagEnd c ∨ Text.isBlank c = true
  -- with no name begun the end belongs to the items so far, otherwise to the name as an item of its own
  · by_cases hnil : name = []
    · subst hnil
      refine leads_ending htag hitems.laid hitems.nonempty (hends.imp_right fun h => ⟨h, fun last hl => ?_⟩) hmove
      have := hitems.ended last hl
      cases last with
      | bare name value => cases this
      | _ => rfl
    · have hevents : attributeEvents name [] = (Item.flag name.reverse).events := by
        have := attributeEvents_reverse (by simpa using hnil : name.reverse ≠ []) []
        rwa [List.reverse_reverse] at this
      refine leads_item htag hitems (.flag name.reverse) ⟨by simpa using hnil, forall_mem_reverse hname⟩
        (hends.imp_right fun h => ⟨h, rfl⟩) ?_ hmove
      rw [move_flag hends, hevents]
  · obtain ⟨hend, hblank⟩ := not_or.1 hends
    obtain ⟨hslash, hgreater⟩ := not_or.1 hend
    by_cases hequals : c = '='
    · subst hequals
      rw [move, if_pos rfl] at hmove
      split at hmove
      · cases hmove
      · rename_i hnil
        cases hmove
        refine .inl ⟨rfl, ?_⟩
        rw [List.append_nil]
        exact .bare htag hitems ⟨by simpa using hnil, hname⟩ fun _ hc => absurd hc List.not_mem_nil
    · rw [move, if_neg hequals, if_neg hslash, if_neg hgreater, if_neg hblank] at hmove
      cases hmove
      have hc : inName c = true := by simp [inName, hequals, hslash, hgreater, hblank]
      have : Inside (.attributes tag (c :: name)) _ _ := .attributes htag hitems (List.forall_mem_cons.2 ⟨hc, hname⟩)
      rw [List.reverse_cons] at this
      refine .inl ⟨rfl, ?_⟩
      rwa [List.append_nil]

theorem leads_quoted (htag : ∀ c ∈ tag.chars, inTagName c = true) (hitems : Begun items)
    (hname : name ≠ [] ∧ ∀ c ∈ name, inName c = true) (hvalue : ∀ c ∈ value, (c != '"') = true)
    (hmove : move i stack c (.value tag name true value) = .ok m) :
    Leads stack (tag.chars.reverse ++ (itemChars items ++ (name.reverse ++ '=' :: '"' :: value.reverse)) ++ [c])
      (.opened tag.text :: itemEvents items) m := by
  rw [move] at hmove
  split at hmove
  · rename_i hc
    subst hc
    cases hmove
    have hitem : (Item.quoted name.reverse value.reverse).WellFormed :=
      ⟨⟨by simpa using hname.1, forall_mem_reverse hname.2⟩, forall_mem_reverse hvalue⟩
    have : Inside (.attributes tag []) _ _ :=
      .attributes htag (hitems.concat_ended hitem rfl) fun _ hc => absurd hc List.not_mem_nil
    rw [itemChars_concat, itemEvents_concat] at this
    refine .inl ⟨rfl, ?_⟩
    simpa [Item.chars, Item.events, collected] using this
  · rename_i hc
    cases hmove
    have hc : (c != '"') = true := by simpa using hc
    have : Inside (.value tag name true (c :: value)) _ _ :=
      .quoted htag hitems hname (List.forall_mem_cons.2 ⟨hc, hvalue⟩)
    refine .inl ⟨rfl, ?_⟩
    simpa using this

theorem leads_bare (htag : ∀ c ∈ tag.chars, inTagName c = true) (hitems : Begun items)
    (hname : name ≠ [] ∧ ∀ c ∈ name, inName c = true) (hvalue : ∀ c ∈ value, inBare c = true)
    (hmove : move i stack c (.value tag name false value) = .ok m) :
    Leads stack (tag.chars.reverse ++ (itemChars items ++ (name.reverse ++ '=' :: value.reverse)) ++ [c])
      (.opened tag.text :: itemEvents items) m := by
  by_cases hends : isTagEnd c ∨ Text.isBlank c = true
  · have hne : Text.isBlank c = true → value ≠ [] := by
      intro hblank hnil
      subst hnil
      rw [move, if_neg (ne_of_isBlank hblank rfl), if_neg (ne_of_isBlank hblank rfl),
        if_neg (ne_of_isBlank hblank rfl), if_pos hblank, if_pos (by rfl)] at hmove
      cases hmove
    have hitem : (Item.bare name.reverse value.reverse).WellFormed :=
      ⟨⟨by simpa using hname.1, forall_mem_reverse hname.2⟩, forall_mem_reverse hvalue⟩
    have hevents : attributeEvents name value = (Item.bare name.reverse value.reverse).events := by
      have := attributeEvents_reverse hitem.1.1 value.reverse
      rwa [List.reverse_reverse, List.reverse_reverse] at this
    have hmay : isTagEnd c ∨ (Text.isBlank c = true ∧ (Item.bare name.reverse value.reverse).mayEnd = true) :=
      hends.imp_right fun h => ⟨h, by simpa [Item.mayEnd] using hne h⟩
    have := leads_item htag hitems _ hitem hmay (by rw [move_bare hends tag name hne, hevents]) hmove
    simpa [Item.chars] using this
  · obtain ⟨hend, hblank⟩ := not_or.1 hends
    obtain ⟨hslash, hgreater⟩ := not_or.1 hend
    by_cases hquote : c = '"'
    · subst hquote
      rw [move, if_pos rfl] at hmove
      split at hmove
      · rename_i hnil
        rw [List.isEmpty_iff] at hnil
        cases hmove
        have : Inside (.value tag name true []) _ _ :=
          .quoted htag hitems hname fun _ hc => absurd hc List.not_mem_nil
        refine .inl ⟨rfl, ?_⟩
        simpa [hnil] using this
      · cases hmove
    · rw [move, if_neg hquote, if_neg hslash, if_neg hgreater, if_neg hblank] at hmove
      cases hmove
      have hc : inBare c = true := by simp [inBare, hquote, hslash, hgreater, hblank]
      have : Inside (.value tag name false (c :: value)) _ _ :=
        .bare htag hitems hname (List.forall_mem_cons.2 ⟨hc, hvalue⟩)
      refine .inl ⟨rfl, ?_⟩
      simpa using this

theorem leads_selfClosing (htag : ∀ c ∈ tag.chars, inTagName c = true) (hitems : WellLaid items)
    (hne : tag.chars ≠ [] ∨ items ≠ []) (hmove : move i stack c (.selfClosing tag) = .ok m) :
    Leads stack (tag.chars.reverse ++ (itemChars items ++ ['/']) ++ [c]) (.opened tag.text :: itemEvents items) m := by
  rw [move] at hmove
  split at hmove
  · rename_i hc
    subst hc
    cases hmove
    refine .inr ⟨.selfClosing tag.chars.reverse items, ⟨forall_mem_reverse htag, hitems, ?_⟩, rfl, rfl, ?_, rfl⟩
    · exact hne.imp_left fun h => by simpa using h
    · simp [Tag.chars]
  · cases hmove

theorem leads_closeName (htag : ∀ c ∈ tag.chars, (c != '>') = true) (hmove : move i stack c (.closeName tag) = .ok m) :
    Leads stack ('/' :: tag.chars.reverse ++ [c]) [] m := by
  rw [move] at hmove
  split at hmove
  · rename_i hc
    subst hc
    rw [closeThrough_eq] at hmove
    by_cases hmem : tag.text ∈ stack
    · rw [if_pos hmem] at hmove
      cases hmove
      refine .inr ⟨.closing tag.chars.reverse, forall_mem_reverse htag, if_pos hmem, rfl, rfl, rfl⟩
    · rw [if_neg hmem] at hmove
      cases hmove
  · rename_i hc
    cases hmove
    have : Inside (.closeName (tag.push i c)) _ _ := .closeName (List.forall_mem_cons.2 ⟨by simpa using hc, htag⟩)
    refine .inl ⟨rfl, ?_⟩
    rwa [show (tag.push i c).chars = c :: tag.chars from rfl, List.reverse_cons] at this

end Moves

/-- **One move inside a tag**, mode by mode. -/
theorem Inside.leads {stack : List String} {mode : Mode} {cs : List Char} {es : List Event} (h : Inside mode cs es)
    {i : Nat} {c : Char} {m : Move} (hmove : move i stack c mode = .ok m) : Leads stack (cs ++ [c]) es m := by
  cases h with
  | openName htag => exact leads_openName htag hmove
  | attributes htag hitems hname =>
    rw [List.append_assoc, List.append_assoc]
    exact leads_attributes htag hitems hname hmove
  | quoted htag hitems hname hvalue => exact leads_quoted htag hitems hname hvalue hmove
  | bare htag hitems hname hvalue => exact leads_bare htag hitems hname hvalue hmove
  | selfClosing htag hitems hne => exact leads_selfClosing htag hitems hne hmove
  | closeName htag => exact leads_closeName htag hmove

/-! ## What is left of an accepted text -/

/-- What a mode has read since the last tag, and what it has told of it. -/
inductive Stands : Mode → List Char → List Event → Prop
  | text {run : List Char} (htext : ∀ c ∈ run, (c != '<') = true) : Stands (.text run) run.reverse []
  | inside {mode : Mode} {text cs : List Char} {es : List Event} (htext : ∀ c ∈ text, (c != '<') = true)
    (h : Inside mode cs es) : Stands mode (text ++ '<' :: cs) (plainEvents text ++ es)

theorem textEvents_eq (run : List Char) : textEvents run = plainEvents run.reverse := by
  rw [← textEvents_reverse, List.append_nil, List.reverse_reverse]

/-- **One move**: it reads on, or it completes a text and a tag. -/
theorem Stands.leads {stack : List String} {mode : Mode} {cs : List Char} {es : List Event} (h : Stands mode cs es)
    {i : Nat} {c : Char} {m : Move} (hmove : move i stack c mode = .ok m) :
    (m.1 = stack ∧ Stands m.2.1 (cs ++ [c]) (es ++ m.2.2)) ∨
    ∃ (text : List Char) (tag : Tag), (∀ c ∈ text, (c != '<') = true) ∧ tag.WellFormed ∧
      tag.opensAfter stack = some m.1 ∧ m.2.1 = .text [] ∧ cs ++ [c] = text ++ tag.chars ∧
      es ++ m.2.2 = plainEvents text ++ tag.events := by
  cases h with
  | @text run htext =>
    rw [move] at hmove
    split at hmove
    · rename_i hc
      subst hc
      cases hmove
      have : Stands (.openName .empty) _ _ :=
        .inside (forall_mem_reverse htext) (.openName fun _ hc => absurd hc List.not_mem_nil)
      refine .inl ⟨rfl, ?_⟩
      simpa [Name.empty, textEvents_eq] using this
    · rename_i hc
      cases hmove
      have : Stands (.text (c :: run)) _ _ := .text (List.forall_mem_cons.2 ⟨by simpa using hc, htext⟩)
      rw [List.reverse_cons] at this
      exact .inl ⟨rfl, this⟩
  | inside htext h =>
    rw [List.append_assoc, List.append_assoc]
    rcases h.leads hmove with ⟨hstack, hinside⟩ | ⟨tag, htag, hopens, hmode, hchars, hevents⟩
    · exact .inl ⟨hstack, .inside htext hinside⟩
    · exact .inr ⟨_, tag, htext, htag, hopens, hmode, congrArg _ hchars, congrArg _ hevents⟩

theorem Stands.finish {mode : Mode} {cs : List Char} {es : List Event} (h : Stands mode cs es)
    (hfault : mode.finish.fault = none) (stack : List String) :
    ∃ d : Document, d.WellFormed stack ∧ d.chars = cs ∧ d.events = es ++ mode.finish.events := by
  cases h with
  | @text run htext =>
    refine ⟨⟨[], run.reverse⟩, ⟨by simp, by simp, rfl, forall_mem_reverse htext⟩, rfl, ?_⟩
    exact (textEvents_eq run).symm
  | inside _ h => cases h <;> cases hfault

/-- **What is left of an accepted text is a document**, along with what has been read since the last tag. -/
theorem document_of_scan : ∀ (cs : List Char) {i : Nat} {stack : List String} {mode : Mode} {front : List Char}
    {es : List Event}, Stands mode front es → (State.scan ⟨i, stack, mode⟩ cs).fault = none →
      ∃ d : Document, d.WellFormed stack ∧ d.chars = front ++ cs ∧
        d.events = es ++ (State.scan ⟨i, stack, mode⟩ cs).events
  | [], i, stack, mode, front, es, h, hfault => by
    rw [List.append_nil]
    exact h.finish hfault stack
  | c :: cs, i, stack, mode, front, es, h, hfault => by
    unfold State.scan at hfault ⊢
    cases hm : move i stack c mode with
    | error fault => rw [hm] at hfault; cases hfault
    | ok m =>
      obtain ⟨stack', mode', es'⟩ := m
      rw [hm] at hfault
      rcases h.leads hm with ⟨hstack, hstands⟩ | ⟨text, tag, htext, htag, hopens, hmode, hchars, hevents⟩
      · obtain rfl : stack' = stack := hstack
        obtain ⟨d, hd, hdchars, hdevents⟩ := document_of_scan cs hstands hfault
        refine ⟨d, hd, ?_, ?_⟩
        · rw [hdchars, List.append_assoc, List.singleton_append]
        · rw [hdevents, List.append_assoc]
      -- a tag is complete, so the rest is a document of its own where the elements after the tag are open
      · obtain rfl : mode' = .text [] := hmode
        obtain ⟨d, hd, hdchars, hdevents⟩ := document_of_scan cs (.text fun _ hc => absurd hc List.not_mem_nil) hfault
        refine ⟨.cons text tag d, Document.wellFormed_cons.2 ⟨htext, htag, stack', hopens, hd⟩, ?_, ?_⟩
        · rw [Document.chars_cons, hdchars, ← List.append_assoc, ← hchars, List.append_assoc]
          rfl
        · rw [Document.events_cons, hdevents, ← List.append_assoc, ← hevents, List.append_assoc]
          rfl

/-! ## Accepted texts -/

theorem scan_of_document {d : Document} (h : d.WellFormed []) {text : String} (htext : d.chars = text.toList) :
    scan text = ⟨d.events, none⟩ := by
  rw [scan, ← htext]
  exact reads_document d.rest d.parts h 0

/-- A text without fault is a well-formed document, and its events are those of the document. -/
theorem exists_document {text : String} (h : (scan text).fault = none) :
    ∃ d : Document, d.WellFormed [] ∧ d.chars = text.toList ∧ d.events = (scan text).events :=
  document_of_scan text.toList (.text fun _ hc => absurd hc List.not_mem_nil) h

/-- **A text is accepted exactly if it is a well-formed document**, and nothing of it is lost: however it is read as
one, its events are those of the document. -/
theorem accepts_documents (text : String) :
    ((scan text).fault = none ↔ ∃ d : Document, d.WellFormed [] ∧ d.chars = text.toList) ∧
    ∀ d : Document, d.WellFormed [] → d.chars = text.toList → (scan text).events = d.events := by
  refine ⟨⟨fun h => ?_, ?_⟩, fun d hd htext => ?_⟩
  · obtain ⟨d, hd, htext, _⟩ := exists_document h
    exact ⟨d, hd, htext⟩
  · rintro ⟨d, hd, htext⟩
    rw [scan_of_document hd htext]
  · rw [scan_of_document hd htext]

end Markup
end WorldAudit
