import WorldAudit.Markup.Scan
import WorldAudit.Proofs.Markup.Grammar
/-!
# Reading — a scan reads every well-formed document

What a scan makes of the characters to come is said mode by mode (`Reads`), from the end of the document to its start:
if the scan reads what follows a piece, it reads the piece as well.  Attributes that nothing ends but what follows them
are told of when that is read (`Reads.owed`).
-/
namespace WorldAudit
namespace Markup

/-- **Where some elements are open, a mode reads characters as events**, whatever the index. -/
def Reads (stack : List String) (mode : Mode) (cs : List Char) (es : List Event) : Prop :=
  ∀ i, State.scan ⟨i, stack, mode⟩ cs = ⟨es, none⟩

theorem Reads.step {stack stack' : List String} {mode mode' : Mode} {c : Char} {cs : List Char} {es es' : List Event}
    (hmove : ∀ i, move i stack c mode = .ok (stack', mode', es)) (h : Reads stack' mode' cs es') :
    Reads stack mode (c :: cs) (es ++ es') := by
  intro i
  unfold State.scan
  simp only [hmove i, h (i + c.utf8Size)]

theorem Reads.silent {stack stack' : List String} {mode mode' : Mode} {c : Char} {cs : List Char} {es : List Event}
    (hmove : ∀ i, move i stack c mode = .ok (stack', mode', [])) (h : Reads stack' mode' cs es) :
    Reads stack mode (c :: cs) es :=
  Reads.step hmove h

theorem Reads.told {stack stack' : List String} {mode mode' : Mode} {c : Char} {cs : List Char} {e : Event}
    {es : List Event} (hmove : ∀ i, move i stack c mode = .ok (stack', mode', [e])) (h : Reads stack' mode' cs es) :
    Reads stack mode (c :: cs) (e :: es) :=
  Reads.step hmove h

/-! ## Runs of characters -/

/-- `holds run mode` says that a mode has collected a run, latest character first.  Such modes collect the characters
that satisfy `p`. -/
def Collects (holds : List Char → Mode → Prop) (p : Char → Bool) : Prop :=
  ∀ run mode, holds run mode → ∀ c, p c = true → ∀ i stack, ∃ mode', holds (c :: run) mode' ∧
    move i stack c mode = .ok (stack, mode', [])

/-- **A run that is collected is passed over.** -/
theorem Reads.run {holds : List Char → Mode → Prop} {p : Char → Bool} (hcollects : Collects holds p)
    {stack : List String} {cs : List Char} {es : List Event} : ∀ (cs' run : List Char), (∀ c ∈ cs', p c = true) →
      (∀ mode, holds (cs'.reverse ++ run) mode → Reads stack mode cs es) →
      ∀ mode, holds run mode → Reads stack mode (cs' ++ cs) es
  | [], _, _, h, mode, hmode => h mode hmode
  | c :: cs', run, hp, h, mode, hmode => by
    have hrest : ∀ mode', holds (c :: run) mode' → Reads stack mode' (cs' ++ cs) es := by
      refine Reads.run hcollects cs' (c :: run) (fun d hd => hp d (List.mem_cons_of_mem c hd)) fun mode' hmode' => ?_
      refine h mode' ?_
      rw [List.reverse_cons, List.append_assoc]
      exact hmode'
    intro i
    obtain ⟨mode', hmode', hmove⟩ := hcollects run mode hmode c (hp c List.mem_cons_self) i stack
    have := hrest mode' hmode' (i + c.utf8Size)
    rw [List.cons_append]
    unfold State.scan
    simp only [hmove, this, List.nil_append]

theorem collects_text : Collects (fun run mode => mode = .text run) (· != '<') := by
  rintro run mode rfl c hc i stack
  refine ⟨_, rfl, ?_⟩
  rw [move, if_neg (by simpa using hc)]

theorem collects_tagName :
    Collects (fun run mode => ∃ tag : Name, tag.chars = run ∧ mode = .openName tag) inTagName := by
  rintro run mode ⟨tag, rfl, rfl⟩ c hc i stack
  simp only [inTagName, Bool.and_eq_true, bne_iff_ne, Bool.not_eq_true'] at hc
  obtain ⟨⟨⟨hless, hslash⟩, hgreater⟩, hblank⟩ := hc
  refine ⟨_, ⟨tag.push i c, rfl, rfl⟩, ?_⟩
  rw [move, if_neg hslash, if_neg hless, if_neg hgreater, if_neg (by simp [hblank])]

theorem collects_closeName :
    Collects (fun run mode => ∃ tag : Name, tag.chars = run ∧ mode = .closeName tag) (· != '>') := by
  rintro run mode ⟨tag, rfl, rfl⟩ c hc i stack
  refine ⟨_, ⟨tag.push i c, rfl, rfl⟩, ?_⟩
  rw [move, if_neg (by simpa using hc)]

theorem collects_name (tag : Name) : Collects (fun run mode => mode = .attributes tag run) inName := by
  rintro run mode rfl c hc i stack
  simp only [inName, Bool.and_eq_true, bne_iff_ne, Bool.not_eq_true'] at hc
  obtain ⟨⟨⟨hequals, hslash⟩, hgreater⟩, hblank⟩ := hc
  refine ⟨_, rfl, ?_⟩
  rw [move, if_neg hequals, if_neg hslash, if_neg hgreater, if_neg (by simp [hblank])]

theorem collects_quoted (tag : Name) (name : List Char) :
    Collects (fun run mode => mode = .value tag name true run) (· != '"') := by
  rintro run mode rfl c hc i stack
  refine ⟨_, rfl, ?_⟩
  rw [move, if_neg (by simpa using hc)]

theorem collects_bare (tag : Name) (name : List Char) :
    Collects (fun run mode => mode = .value tag name false run) inBare := by
  rintro run mode rfl c hc i stack
  simp only [inBare, Bool.and_eq_true, bne_iff_ne, Bool.not_eq_true'] at hc
  obtain ⟨⟨⟨hquote, hslash⟩, hgreater⟩, hblank⟩ := hc
  refine ⟨_, rfl, ?_⟩
  rw [move, if_neg hquote, if_neg hslash, if_neg hgreater, if_neg (by simp [hblank])]

/-! ## Attributes -/

/-- The characters at which a tag ends. -/
def isTagEnd (c : Char) : Prop := c = '/' ∨ c = '>'

def Move.after (es : List Event) (m : Move) : Move := (m.1, m.2.1, es ++ m.2.2)

/-- **What a mode owes**: it does what another mode does, once it has told of some events. -/
theorem Reads.owed {stack : List String} {mode mode' : Mode} {c : Char} {cs : List Char} {es es' : List Event}
    (hmove : ∀ i, move i stack c mode = (move i stack c mode').map (Move.after es))
    (h : Reads stack mode' (c :: cs) es') : Reads stack mode (c :: cs) (es ++ es') := by
  intro i
  have hi := h i
  unfold State.scan at hi ⊢
  rw [hmove i]
  cases hm : move i stack c mode' with
  | error fault => rw [hm] at hi; cases hi
  | ok m =>
    rw [hm] at hi
    simp only [Scan.mk.injEq] at hi
    simp only [Except.map, Move.after, List.append_assoc, hi.1, hi.2]

theorem ne_of_isBlank {c d : Char} (hc : Text.isBlank c = true) (hd : Text.isBlank d = false) : c ≠ d := by
  rintro rfl
  rw [hc] at hd
  cases hd

/-- At white space or the end of the tag an attribute without a value is told of. -/
theorem move_flag {c : Char} (hc : isTagEnd c ∨ Text.isBlank c = true) (tag : Name) (name : List Char) (i : Nat)
    (stack : List String) :
    move i stack c (.attributes tag name) =
      (move i stack c (.attributes tag [])).map (Move.after (attributeEvents name [])) := by
  rcases hc with (rfl | rfl) | hblank
  · simp [move, Except.map, Move.after, attributeEvents]
  · simp [move, Except.map, Move.after, attributeEvents]
  · rw [move, move, if_neg (ne_of_isBlank hblank rfl), if_neg (ne_of_isBlank hblank rfl),
      if_neg (ne_of_isBlank hblank rfl), if_pos hblank, if_neg (ne_of_isBlank hblank rfl),
      if_neg (ne_of_isBlank hblank rfl), if_neg (ne_of_isBlank hblank rfl), if_pos hblank]
    simp [Except.map, Move.after, attributeEvents]

theorem move_bare {c : Char} (hc : isTagEnd c ∨ Text.isBlank c = true) (tag : Name) (name : List Char)
    {value : List Char} (hvalue : Text.isBlank c = true → value ≠ []) (i : Nat) (stack : List String) :
    move i stack c (.value tag name false value) =
      (move i stack c (.attributes tag [])).map (Move.after (attributeEvents name value)) := by
  rcases hc with (rfl | rfl) | hblank
  · simp [move, Except.map, Move.after, attributeEvents]
  · simp [move, Except.map, Move.after, attributeEvents]
  · rw [move, move, if_neg (ne_of_isBlank hblank rfl), if_neg (ne_of_isBlank hblank rfl),
      if_neg (ne_of_isBlank hblank rfl), if_pos hblank, if_neg (by simpa using hvalue hblank),
      if_neg (ne_of_isBlank hblank rfl), if_neg (ne_of_isBlank hblank rfl), if_neg (ne_of_isBlank hblank rfl),
      if_pos hblank]
    simp [Except.map, Move.after, attributeEvents]

/-- What may follow an item. -/
def Item.EndedBy (item : Item) (c : Char) : Prop :=
  item.isEnded = true ∨ isTagEnd c ∨ (Text.isBlank c = true ∧ item.mayEnd = true)

theorem attributeEvents_reverse {name : List Char} (h : name ≠ []) (value : List Char) :
    attributeEvents name.reverse value.reverse = [.attribute (String.ofList name) (String.ofList value)] := by
  rw [attributeEvents, if_neg (by simpa using h), collected, collected, List.reverse_reverse, List.reverse_reverse]

section Items

variable {stack : List String} {tag : Name} {cs : List Char} {es : List Event}

theorem reads_named {name : List Char} (hname : name ≠ [] ∧ ∀ c ∈ name, inName c = true)
    (h : Reads stack (.value tag name.reverse false []) cs es) :
    Reads stack (.attributes tag []) (name ++ '=' :: cs) es := by
  refine Reads.run (collects_name tag) name [] hname.2 ?_ _ rfl
  rintro mode rfl
  refine Reads.silent (fun i => ?_) h
  rw [move, if_pos rfl, List.append_nil, if_neg (by simpa using hname.1)]

/-- **An item is read where a tag has no attribute begun**, and what follows is read from there. -/
theorem reads_item {item : Item} (hitem : item.WellFormed) {c : Char} (hc : item.EndedBy c)
    (h : Reads stack (.attributes tag []) (c :: cs) es) :
    Reads stack (.attributes tag []) (item.chars ++ c :: cs) (item.events ++ es) := by
  cases item with
  | blank d =>
    have hblank : Text.isBlank d = true := hitem
    refine Reads.silent (fun i => ?_) h
    rw [move, if_neg (ne_of_isBlank hblank rfl), if_neg (ne_of_isBlank hblank rfl), if_neg (ne_of_isBlank hblank rfl),
      if_pos hblank]
    rfl
  | flag name =>
    have hends : isTagEnd c ∨ Text.isBlank c = true := hc.elim (fun h => by cases h) (fun h => h.imp_right And.left)
    refine Reads.run (collects_name tag) name [] hitem.2 ?_ _ rfl
    rintro mode rfl
    rw [List.append_nil]
    have := Reads.owed (move_flag hends tag name.reverse · stack) h
    rw [show ([] : List Char) = [].reverse from rfl, attributeEvents_reverse hitem.1] at this
    exact this
  | quoted name value =>
    obtain ⟨hname, hvalue⟩ := hitem
    have hchars : (Item.quoted name value).chars ++ c :: cs = name ++ '=' :: '"' :: (value ++ '"' :: c :: cs) := by
      simp [Item.chars]
    rw [hchars]
    refine reads_named hname ?_
    refine Reads.silent (fun i => rfl) ?_
    refine Reads.run (collects_quoted tag name.reverse) value [] hvalue ?_ _ rfl
    rintro mode rfl
    refine Reads.step (fun i => ?_) h
    rw [move, if_pos rfl, List.append_nil, collected, collected, List.reverse_reverse, List.reverse_reverse]
    rfl
  | bare name value =>
    obtain ⟨hname, hvalue⟩ := hitem
    have hends : isTagEnd c ∨ Text.isBlank c = true := hc.elim (fun h => by cases h) (fun h => h.imp_right And.left)
    have hne : Text.isBlank c = true → value.reverse ≠ [] := by
      intro hblank
      rcases hc with h | (rfl | rfl) | ⟨_, h⟩
      · cases h
      · exact absurd hblank (by decide)
      · exact absurd hblank (by decide)
      · simpa [Item.mayEnd] using h
    rw [Item.chars, List.append_assoc, List.cons_append]
    refine reads_named hname ?_
    refine Reads.run (collects_bare tag name.reverse) value [] hvalue ?_ _ rfl
    rintro mode rfl
    rw [List.append_nil]
    have := Reads.owed (move_bare hends tag name.reverse hne · stack) h
    rw [attributeEvents_reverse hname.1] at this
    exact this

theorem exists_endedBy (cs : List Char) {item : Item} {items : List Item} (h : (item :: items).IsChain Item.Precedes)
    (hitems : ∀ item ∈ items, item.WellFormed) {c : Char} (hc : isTagEnd c) :
    ∃ c' cs', itemChars items ++ c :: cs = c' :: cs' ∧ item.EndedBy c' := by
  cases items with
  | nil => exact ⟨c, cs, rfl, .inr (.inl hc)⟩
  | cons next items =>
    rcases (List.isChain_cons_cons.1 h).1 with hended | ⟨hblank, hmay⟩
    · cases hcs : itemChars (next :: items) ++ c :: cs with
      | nil => exact absurd hcs (by simp)
      | cons c' cs' => exact ⟨c', cs', rfl, .inl hended⟩
    · cases next with
      | blank d => exact ⟨d, _, rfl, .inr (.inr ⟨hitems _ List.mem_cons_self, hmay⟩)⟩
      | _ => cases hblank

/-- **The items of a tag are read up to its end.** -/
theorem reads_items {c : Char} (hc : isTagEnd c) (h : Reads stack (.attributes tag []) (c :: cs) es) :
    ∀ (items : List Item), (∀ item ∈ items, item.WellFormed) → items.IsChain Item.Precedes →
      Reads stack (.attributes tag []) (itemChars items ++ c :: cs) (itemEvents items ++ es)
  | [], _, _ => h
  | item :: items, hitems, hchain => by
    have hrest := reads_items hc h items (fun i hi => hitems i (List.mem_cons_of_mem item hi)) hchain.tail
    obtain ⟨c', cs', hcs, hended⟩ :=
      exists_endedBy cs hchain (fun i hi => hitems i (List.mem_cons_of_mem item hi)) hc
    rw [itemChars, itemEvents, List.flatMap_cons, List.flatMap_cons, List.append_assoc, List.append_assoc]
    rw [itemChars] at hcs hrest
    rw [hcs] at hrest ⊢
    exact reads_item (hitems item List.mem_cons_self) hended hrest

end Items

/-! ## Tags and documents -/

theorem closeThrough_eq (tag : String) : ∀ (stack : List String),
    closeThrough tag stack = if tag ∈ stack then some (stack.dropWhile (· != tag)).tail else none
  | [] => by simp [closeThrough]
  | top :: stack => by
    rw [closeThrough, closeThrough_eq tag stack]
    by_cases h : top = tag
    · simp [h]
    · simp [h, Ne.symm h]

section Tags

variable {stack : List String} {cs : List Char} {es : List Event}

theorem text_of_chars {tag : Name} {name : List Char} (h : tag.chars = name.reverse ++ []) :
    tag.text = String.ofList name := by
  rw [Name.text, collected, h, List.append_nil, List.reverse_reverse]

/-- The name and the items of a tag are read up to its end. -/
theorem reads_head {name : List Char} (hname : ∀ c ∈ name, inTagName c = true) {items : List Item}
    (hitems : WellLaid items) {c : Char} (hc : isTagEnd c)
    (hbare : items = [] → ∀ tag : Name, tag.chars = name.reverse ++ [] →
      Reads stack (.openName tag) (c :: cs) (.opened (String.ofList name) :: es))
    (hlaid : ∀ tag : Name, tag.chars = name.reverse ++ [] → Reads stack (.attributes tag []) (c :: cs) es) :
    Reads stack (.openName .empty) (name ++ (itemChars items ++ c :: cs))
      (.opened (String.ofList name) :: (itemEvents items ++ es)) := by
  refine Reads.run collects_tagName name [] hname ?_ _ ⟨.empty, rfl, rfl⟩
  rintro mode ⟨tag, htag, rfl⟩
  cases items with
  | nil => exact hbare rfl tag htag
  | cons item items =>
    have hled : item.isBlank = true := hitems.led item rfl
    cases item with
    | blank d =>
      have hblank : Text.isBlank d = true := hitems.each _ List.mem_cons_self
      have hrest := reads_items hc (hlaid tag htag) items (fun i hi => hitems.each i (List.mem_cons_of_mem _ hi))
        hitems.apart.tail
      refine Reads.told (fun i => ?_) hrest
      rw [move, if_neg (ne_of_isBlank hblank rfl), if_neg (ne_of_isBlank hblank rfl),
        if_neg (ne_of_isBlank hblank rfl), if_pos hblank, text_of_chars htag]
    | _ => cases hled

/-- **A tag is read**, and what follows is read with the elements open after it. -/
theorem reads_tag {tag : Tag} (htag : tag.WellFormed) {stack' : List String}
    (hopens : tag.opensAfter stack = some stack') (h : Reads stack' (.text []) cs es) :
    Reads stack (.text []) (tag.chars ++ cs) (tag.events ++ es) := by
  cases tag with
  | opening name items =>
    obtain ⟨hname, hitems⟩ := htag
    cases hopens
    have hchars : (Tag.opening name items).chars ++ cs = '<' :: (name ++ (itemChars items ++ '>' :: cs)) := by
      simp [Tag.chars]
    rw [hchars]
    refine Reads.silent (fun i => rfl) (reads_head hname hitems (.inr rfl) (fun _ tag htag => ?_) fun tag htag => ?_)
    · rw [← text_of_chars htag] at h ⊢
      exact Reads.told (fun i => rfl) h
    · rw [← text_of_chars htag] at h
      exact Reads.silent (fun i => rfl) h
  | selfClosing name items =>
    obtain ⟨hname, hitems, hne⟩ := htag
    cases hopens
    have hchars : (Tag.selfClosing name items).chars ++ cs =
        '<' :: (name ++ (itemChars items ++ '/' :: '>' :: cs)) := by
      simp [Tag.chars]
    have hevents : (Tag.selfClosing name items).events ++ es =
        .opened (String.ofList name) :: (itemEvents items ++ (.closed (String.ofList name) :: es)) := by
      simp [Tag.events]
    have hend : ∀ tag : Name, tag.chars = name.reverse ++ [] →
        Reads stack (.selfClosing tag) ('>' :: cs) (.closed (String.ofList name) :: es) := fun tag htag => by
      rw [← text_of_chars htag]
      exact Reads.told (fun i => rfl) h
    rw [hchars, hevents]
    refine Reads.silent (fun i => rfl) (reads_head hname hitems (.inl rfl) (fun hnil tag htag => ?_) fun tag htag => ?_)
    · refine Reads.told (fun i => ?_) (hend tag htag)
      have hchars : tag.chars ≠ [] := by simpa [htag] using hne.resolve_right (not_not_intro hnil)
      rw [move, if_pos rfl, if_neg (by simpa using hchars), text_of_chars htag]
    · exact Reads.silent (fun i => rfl) (hend tag htag)
  | closing name =>
    rw [Tag.opensAfter] at hopens
    split at hopens
    · rename_i hmem
      have hname : Reads stack (.closeName .empty) (name ++ '>' :: cs) (.closed (String.ofList name) :: es) := by
        refine Reads.run collects_closeName name [] htag ?_ _ ⟨.empty, rfl, rfl⟩
        rintro mode ⟨tag, htag, rfl⟩
        refine Reads.told (fun i => ?_) h
        rw [move, if_pos rfl, closeThrough_eq, text_of_chars htag, if_pos hmem, hopens]
      have hchars : (Tag.closing name).chars ++ cs = '<' :: '/' :: (name ++ '>' :: cs) := by
        simp [Tag.chars]
      rw [hchars]
      refine Reads.silent (fun i => rfl) (Reads.silent (fun i => ?_) hname)
      rw [move, if_pos rfl, if_pos (by rfl), if_neg (by simpa using List.ne_nil_of_mem hmem)]
    · cases hopens

theorem textEvents_reverse (text : List Char) : textEvents (text.reverse ++ []) = plainEvents text := by
  rw [List.append_nil, textEvents, plainEvents, collected, List.reverse_reverse, List.isEmpty_reverse]
  simp only [List.isEmpty_iff]

theorem reads_text {text : List Char} (htext : ∀ c ∈ text, (c != '<') = true) (tag : Tag)
    (h : Reads stack (.text []) (tag.chars ++ cs) es) :
    Reads stack (.text []) (text ++ (tag.chars ++ cs)) (plainEvents text ++ es) := by
  refine Reads.run collects_text text [] htext ?_ _ rfl
  rintro mode rfl
  obtain ⟨cs', hcs⟩ : ∃ cs', tag.chars ++ cs = '<' :: cs' := by
    cases tag <;> exact ⟨_, rfl⟩
  rw [hcs] at h ⊢
  rw [← textEvents_reverse]
  refine Reads.owed (fun i => ?_) h
  rw [move, move, if_pos rfl, if_pos rfl]
  simp [Except.map, Move.after, textEvents]

end Tags

/-- **Every well-formed document is read**, and as its own events. -/
theorem reads_document (rest : List Char) : ∀ (parts : List (List Char × Tag)) {stack : List String},
    Document.WellFormed stack ⟨parts, rest⟩ →
      Reads stack (.text []) (Document.chars ⟨parts, rest⟩) (Document.events ⟨parts, rest⟩)
  | [], stack, h => by
    have hend : Reads stack (.text []) (rest ++ []) (plainEvents rest) := by
      refine Reads.run collects_text rest [] h.rest ?_ _ rfl
      rintro mode rfl i
      rw [State.scan, Mode.finish, textEvents_reverse]
    rwa [List.append_nil] at hend
  | (text, tag) :: parts, stack, h => by
    obtain ⟨htext, htag, stack', hopens, hrest⟩ := (Document.wellFormed_cons (d := ⟨parts, rest⟩)).1 h
    have := reads_text htext tag (reads_tag htag hopens (reads_document rest parts hrest))
    rw [← Document.chars_cons, ← Document.events_cons] at this
    exact this

end Markup
end WorldAudit
