import WorldAudit.Proofs.Markup.Reached
/-!
# Closing — closing tags and the open elements

The events told of a text say by themselves which elements are open (`openAfter`).  A scan keeps its own account, which
a tag enters only where its head ends, and never if it closes itself.  The two differ by that one tag at most
(`Reached.openAfter_eq`), so a closing tag is refused exactly where the events told leave it nothing to close
(`closing_exact`).
-/
namespace WorldAudit
namespace Markup

/-- **The elements that events leave open**, innermost first; none if one of them closes what is not open. -/
def openAfter (es : List Event) : Option (List String) := es.foldlM Event.opensAfter []

/-- The open elements together with the tag that has been told but whose head has not ended. -/
def Mode.opened (stack : List String) : Mode → List String
  | .attributes tag _ | .value tag _ _ _ | .selfClosing tag => tag.text :: stack
  | .text _ | .openName _ | .closeName _ => stack

/-! ## The two accounts -/

theorem foldlM_textEvents (stack : List String) (run : List Char) :
    (textEvents run).foldlM Event.opensAfter stack = some stack := by
  unfold textEvents
  split <;> rfl

theorem foldlM_attributeEvents (stack : List String) (name value : List Char) :
    (attributeEvents name value).foldlM Event.opensAfter stack = some stack := by
  unfold attributeEvents
  split <;> rfl

theorem foldlM_opened (stack : List String) (tag : String) :
    [Event.opened tag].foldlM Event.opensAfter stack = some (tag :: stack) := rfl

theorem foldlM_closed (stack : List String) (tag : String) :
    [Event.closed tag].foldlM Event.opensAfter stack =
      if tag ∈ stack then some (stack.dropWhile (· != tag)).tail else none := by
  rw [List.foldlM_cons, Event.opensAfter]
  split <;> rfl

/-- **The events of one move lead from one account to the next.** -/
theorem foldlM_move {i : Nat} {stack : List String} {c : Char} {mode : Mode} {m : Move}
    (h : move i stack c mode = .ok m) :
    m.2.2.foldlM Event.opensAfter (mode.opened stack) = some (m.2.1.opened m.1) := by
  have hnone : ∀ stack, ([] : List Event).foldlM Event.opensAfter stack = some stack := fun _ => rfl
  cases mode with
  | text run => grind [move, Mode.opened, foldlM_textEvents]
  | openName tag => grind [move, Mode.opened, foldlM_opened]
  | attributes tag name => grind [move, Mode.opened, foldlM_attributeEvents]
  | value tag name quoted value =>
    have htold : ∀ stack,
        [Event.attribute (collected name) (collected value)].foldlM Event.opensAfter stack = some stack := fun _ => rfl
    cases quoted <;> grind [move, Mode.opened, foldlM_attributeEvents]
  | selfClosing tag =>
    have hpop : [Event.closed tag.text].foldlM Event.opensAfter (tag.text :: stack) = some stack := by
      rw [foldlM_closed, if_pos List.mem_cons_self]
      simp
    grind [move, Mode.opened]
  | closeName tag => grind [move, Mode.opened, closeThrough_eq, foldlM_closed]

/-- **What the events told leave open is what the scan holds open.** -/
theorem Reached.openAfter_eq {cs : List Char} {es : List Event} {s : State} (h : Reached cs es s) :
    openAfter es = some (s.mode.opened s.stack) := by
  induction h with
  | start => rfl
  | step _ hmove ih =>
    rw [openAfter, List.foldlM_append]
    show (openAfter _).bind _ = _
    rw [ih, Option.bind_some]
    exact foldlM_move hmove

theorem isSome_openAfter_events (text : String) : (openAfter (scan text).events).isSome = true := by
  rcases Reached.ahead text.toList .start with ⟨es, s, hs⟩ | ⟨front, c, back, es, s, fault, heq, hs, hmove⟩
  · rw [List.nil_append] at hs
    have hopen := hs.openAfter_eq
    rw [openAfter] at hopen
    rw [scan, hs.scan_end, openAfter, List.foldlM_append, hopen]
    cases s.mode with
    | text run => exact congrArg Option.isSome (foldlM_textEvents _ run)
    | _ => rfl
  · rw [List.nil_append] at hs
    rw [scan, heq, hs.scan_error hmove, hs.openAfter_eq]
    rfl

/-! ## Where tags begin and are closed -/

section Moves

variable {i j : Nat} {stack stack' : List String} {c : Char} {mode : Mode} {tag : Name} {es : List Event}

theorem move_openName (h : move i stack c mode = .ok (stack', .openName tag, es)) :
    stack' = stack ∧ ((∃ run, mode = .text run ∧ c = '<' ∧ tag = .empty ∧ es = textEvents run) ∨
      ∃ tag', mode = .openName tag' ∧ tag = tag'.push i c ∧ es = []) := by
  cases mode with
  | value tag name quoted value => cases quoted <;> grind [move]
  | _ => grind [move]

theorem move_closeName (h : move i stack c mode = .ok (stack', .closeName tag, es)) :
    stack' = stack ∧ es = [] ∧ ((mode = .openName tag ∧ c = '/' ∧ tag.chars = [] ∧ stack ≠ []) ∨
      ∃ tag', mode = .closeName tag' ∧ c ≠ '>' ∧ tag = tag'.push i c) := by
  cases mode with
  | value tag name quoted value => cases quoted <;> grind [move]
  | _ => grind [move]

theorem move_straySlash (h : move i stack c mode = .error (.stray .slash j)) :
    i = j ∧ stack = [] ∧ c = '/' ∧ ∃ tag, mode = .openName tag ∧ tag.chars = [] := by
  cases mode with
  | value tag name quoted value => cases quoted <;> grind [move]
  | _ => grind [move]

theorem move_mismatchedClose {name expected : String}
    (h : move i stack c mode = .error (.mismatchedClose name expected j)) :
    i = j ∧ c = '>' ∧ name ∉ stack ∧ expected = stack.headD "" ∧ ∃ tag, mode = .closeName tag ∧ tag.text = name := by
  cases mode with
  | value tag name quoted value => cases quoted <;> grind [move]
  | closeName tag => grind [move, closeThrough_eq]
  | _ => grind [move]

end Moves

theorem Reached.exists_step {cs : List Char} {es : List Event} {s : State} (h : Reached cs es s)
    (hmode : s.mode ≠ .text []) :
    ∃ cs' es' es'' s' c, Reached cs' es' s' ∧ move s'.index s'.stack c s'.mode = .ok (s.stack, s.mode, es'') ∧
      cs = cs' ++ [c] ∧ es = es' ++ es'' := by
  cases h with
  | start => exact absurd rfl hmode
  | step h hmove => exact ⟨_, _, _, _, _, h, hmove, rfl, rfl⟩

section Tags

variable {cs : List Char} {es : List Event} {index : Nat} {stack : List String} {tag : Name}

/-- **A tag begins where what is before it is accepted.** -/
theorem reached_openName_iff (hempty : tag.chars = []) :
    Reached cs es ⟨index, stack, .openName tag⟩ ↔
      tag = .empty ∧ ∃ before : String, cs = before.toList ++ ['<'] ∧ scan before = ⟨es, none⟩ ∧
        openAfter es = some stack ∧ index = Text.byteCount cs := by
  constructor
  · intro h
    obtain ⟨front, es', es'', s, c, hfront, hmove, rfl, rfl⟩ := h.exists_step (by simp)
    obtain ⟨rfl, ⟨run, hmode, rfl, rfl, rfl⟩ | ⟨tag', _, rfl, _⟩⟩ := move_openName hmove
    · refine ⟨rfl, String.ofList front, by rw [String.toList_ofList], ?_, h.openAfter_eq, h.index_eq⟩
      rw [scan, String.toList_ofList, hfront.scan_end, hmode]
      rfl
    · cases hempty
  · rintro ⟨rfl, before, rfl, hscan, hopen, rfl⟩
    have hfault : (scan before).fault = none := by rw [hscan]
    obtain ⟨es', stack', run, hbefore, hevents⟩ := exists_reached_of_accepted hfault
    rw [hscan] at hevents
    obtain rfl : es = es' ++ textEvents run := hevents
    have hmove : ∀ i, move i stack' '<' (.text run) = .ok (stack', .openName .empty, textEvents run) := fun _ => rfl
    have h := hbefore.step (hmove _)
    have hstack := h.openAfter_eq
    rw [hopen] at hstack
    obtain rfl : stack = stack' := Option.some.inj hstack
    rw [← h.index_eq]
    exact h

/-- What is not the end of a closing tag is part of its name. -/
theorem Reached.closeName_append (name : List Char) (hname : '>' ∉ name)
    (h : Reached cs es ⟨index, stack, .closeName tag⟩) :
    ∃ index' tag', tag'.chars = name.reverse ++ tag.chars ∧
      Reached (cs ++ name) es ⟨index', stack, .closeName tag'⟩ := by
  induction name generalizing cs index tag with
  | nil => exact ⟨index, tag, rfl, by rwa [List.append_nil]⟩
  | cons c name ih =>
    obtain ⟨hc, hname⟩ := not_or.1 (mt List.mem_cons.2 hname)
    have hmove : move index stack c (.closeName tag) = .ok (stack, .closeName (tag.push index c), []) :=
      if_neg (Ne.symm hc)
    have hstep := h.step hmove
    rw [List.append_nil] at hstep
    obtain ⟨index', tag', htag, h'⟩ := ih hname hstep
    refine ⟨index', tag', ?_, ?_⟩
    · rw [htag, List.reverse_cons, List.append_assoc]
      rfl
    · rwa [List.append_assoc] at h'

/-- **A closing tag is begun where what is before it is accepted** and leaves something open. -/
theorem reached_closeName_iff {name : List Char} :
    (∃ tag, tag.chars = name.reverse ∧ Reached cs es ⟨index, stack, .closeName tag⟩) ↔
      ∃ before : String, cs = before.toList ++ '<' :: '/' :: name ∧ '>' ∉ name ∧ scan before = ⟨es, none⟩ ∧
        openAfter es = some stack ∧ stack ≠ [] ∧ index = Text.byteCount cs := by
  constructor
  · rintro ⟨tag, htag, h⟩
    -- on the name from its end: the character read last is the latest of the name, or the slash before all of it
    induction name using List.reverseRecOn generalizing cs es tag index with
    | nil =>
      obtain ⟨front, es', es'', s, c, hfront, hmove, rfl, rfl⟩ := h.exists_step (by simp)
      obtain ⟨hstack, rfl, ⟨hmode, rfl, _, hne⟩ | ⟨tag', _, _, rfl⟩⟩ := move_closeName hmove
      · obtain ⟨i, stack', mode⟩ := s
        obtain rfl : stack = stack' := hstack
        obtain rfl : mode = _ := hmode
        obtain ⟨_, before, rfl, hscan, hopen, _⟩ := (reached_openName_iff htag).1 hfront
        rw [List.append_nil]
        exact ⟨before, by simp, List.not_mem_nil, hscan, hopen, hne, h.index_eq⟩
      · cases htag
    | append_singleton name d ih =>
      rw [List.reverse_concat] at htag
      obtain ⟨front, es', es'', s, c, hfront, hmove, rfl, rfl⟩ := h.exists_step (by simp)
      obtain ⟨hstack, rfl, ⟨_, _, hnil, _⟩ | ⟨tag', hmode, hc, rfl⟩⟩ := move_closeName hmove
      · rw [hnil] at htag
        cases htag
      · obtain ⟨i, stack', mode⟩ := s
        obtain rfl : stack = stack' := hstack
        obtain rfl : mode = _ := hmode
        obtain ⟨rfl, hchars⟩ := List.cons.inj htag
        rw [List.append_nil]
        obtain ⟨before, rfl, hname, hscan, hopen, hne, _⟩ := ih tag' hchars hfront
        refine ⟨before, by simp, ?_, hscan, hopen, hne, h.index_eq⟩
        simp [hname, hc.symm]
  · rintro ⟨before, rfl, hname, hscan, hopen, hne, rfl⟩
    have htag := (reached_openName_iff rfl).2 ⟨rfl, before, rfl, hscan, hopen, rfl⟩
    have hmove : ∀ i, move i stack '/' (.openName .empty) = .ok (stack, .closeName .empty, []) := fun i => by
      simp [move, Name.empty, hne]
    have hslash := htag.step (hmove _)
    obtain ⟨index, tag, htag, h⟩ := hslash.closeName_append name hname
    rw [List.append_nil, List.append_assoc, List.append_assoc] at h
    obtain rfl : index = _ := h.index_eq
    exact ⟨tag, by rw [htag]; exact List.append_nil _, h⟩

end Tags

/-! ## Closing tags that are refused -/

/-- A closing tag is refused as a stray slash exactly if nothing is open before it. -/
theorem scan_eq_straySlash_iff (text : String) (es : List Event) (index : Nat) :
    scan text = ⟨es, some (.stray .slash index)⟩ ↔
      ∃ before after : String, text = before ++ "</" ++ after ∧ scan before = ⟨es, none⟩ ∧ openAfter es = some [] ∧
        index = Text.byteCount (before ++ "<").toList := by
  constructor
  · intro h
    have hfault := congrArg Scan.fault h
    rcases fault_cases hfault with ⟨es', s, _, hend⟩ | ⟨front, c, back, es', s, heq, hs, hmove, hevents⟩
    · obtain ⟨_, _, mode⟩ := s
      cases mode <;> cases hend
    · obtain ⟨rfl, hstack, rfl, tag, hmode, hempty⟩ := move_straySlash hmove
      rw [h] at hevents
      obtain rfl : es = es' := hevents
      obtain ⟨index, stack, mode⟩ := s
      obtain rfl : stack = [] := hstack
      obtain rfl : mode = _ := hmode
      obtain ⟨_, before, rfl, hscan, hopen, hindex⟩ := (reached_openName_iff hempty).1 hs
      refine ⟨before, String.ofList back, String.toList_inj.1 ?_, hscan, hopen, ?_⟩
      · simp [heq]
      · simpa using hindex
  · rintro ⟨before, after, rfl, hscan, hopen, rfl⟩
    have htag := (reached_openName_iff (show Name.empty.chars = [] from rfl)).2 ⟨rfl, before, rfl, hscan, hopen, rfl⟩
    have hmove : ∀ i, move i [] '/' (.openName .empty) = .error (.stray .slash i) := fun i => rfl
    have := htag.scan_error (hmove _) after.toList
    simpa [scan] using this

/-- A closing tag is refused as mismatched exactly if its name is none of those that are open before it. -/
theorem scan_eq_mismatchedClose_iff (text : String) (es : List Event) (tag expected : String) (index : Nat) :
    scan text = ⟨es, some (.mismatchedClose tag expected index)⟩ ↔
      ∃ (before after : String) (outer : List String), text = before ++ "</" ++ tag ++ ">" ++ after ∧
        '>' ∉ tag.toList ∧ scan before = ⟨es, none⟩ ∧ openAfter es = some (expected :: outer) ∧
        tag ∉ expected :: outer ∧ index = Text.byteCount (before ++ "</" ++ tag).toList := by
  constructor
  · intro h
    have hfault := congrArg Scan.fault h
    rcases fault_cases hfault with ⟨es', s, _, hend⟩ | ⟨front, c, back, es', s, heq, hs, hmove, hevents⟩
    · obtain ⟨_, _, mode⟩ := s
      cases mode <;> cases hend
    · obtain ⟨rfl, rfl, hmem, rfl, name, hmode, rfl⟩ := move_mismatchedClose hmove
      rw [h] at hevents
      obtain rfl : es = es' := hevents
      obtain ⟨index, stack, mode⟩ := s
      obtain rfl : mode = _ := hmode
      obtain ⟨before, rfl, hname, hscan, hopen, hne, hindex⟩ :=
        reached_closeName_iff.1 ⟨name, (List.reverse_reverse name.chars).symm, hs⟩
      obtain ⟨expected, outer, rfl⟩ := List.exists_cons_of_ne_nil hne
      refine ⟨before, String.ofList back, outer, String.toList_inj.1 ?_, ?_, hscan, hopen, hmem, ?_⟩
      · simp [heq, Name.text, collected]
      · rwa [Name.text, collected, String.toList_ofList]
      · simpa [Name.text, collected] using hindex
  · rintro ⟨before, after, outer, rfl, hname, hscan, hopen, hmem, rfl⟩
    obtain ⟨name, hchars, h⟩ := reached_closeName_iff.2 ⟨before, rfl, hname, hscan, hopen, by simp, rfl⟩
    have htext : name.text = tag := by rw [Name.text, collected, hchars, List.reverse_reverse, String.ofList_toList]
    have hmove : ∀ i, move i (expected :: outer) '>' (.closeName name) = .error (.mismatchedClose tag expected i) :=
      fun i => by
        rw [move, if_pos rfl, htext, closeThrough_eq, if_neg hmem]
        rfl
    have := h.scan_error (hmove _) after.toList
    simpa [scan] using this

/-- **Closing tags are refused by what the events leave open**, in texts that are accepted and in those that are not.
No event closes what the events before it do not leave open.  A closing tag is a stray slash exactly where nothing is
left open, and mismatched exactly where its name is none of those left open, the innermost of which is expected. -/
theorem closing_exact (text : String) :
    (openAfter (scan text).events).isSome = true ∧
    (∀ es index, scan text = ⟨es, some (.stray .slash index)⟩ ↔
      ∃ before after : String, text = before ++ "</" ++ after ∧ scan before = ⟨es, none⟩ ∧ openAfter es = some [] ∧
        index = Text.byteCount (before ++ "<").toList) ∧
    ∀ es tag expected index, scan text = ⟨es, some (.mismatchedClose tag expected index)⟩ ↔
      ∃ (before after : String) (outer : List String), text = before ++ "</" ++ tag ++ ">" ++ after ∧
        '>' ∉ tag.toList ∧ scan before = ⟨es, none⟩ ∧ openAfter es = some (expected :: outer) ∧
        tag ∉ expected :: outer ∧ index = Text.byteCount (before ++ "</" ++ tag).toList :=
  ⟨isSome_openAfter_events text, scan_eq_straySlash_iff text, scan_eq_mismatchedClose_iff text⟩

/-- A tag closed from within another, and then once more. -/
example : scan "<a><b></a></b>" = ⟨[.opened "a", .opened "b", .closed "a"], some (.stray .slash 11)⟩ := by
  decide +kernel

end Markup
end WorldAudit
