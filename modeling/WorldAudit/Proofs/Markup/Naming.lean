import WorldAudit.Proofs.Markup.Closing
/-!
# Naming — what tags are called

White space and slashes end the name of a tag, so the tags that are told, opened or closed, have names without them
(`Reached.isTagName`).  A closing tag that is refused may be called anything.
-/
namespace WorldAudit
namespace Markup

/-- **The name of a tag that opens.** -/
def IsTagName (name : String) : Prop := ∀ c ∈ name.toList, inTagName c = true

/-- What an event calls a tag is the name of one. -/
def Event.Names : Event → Prop
  | .opened tag | .closed tag => IsTagName tag
  | .attribute _ _ | .text _ => True

/-- The tag whose head is read has the name of one so far. -/
def Mode.Names : Mode → Prop
  | .openName tag | .attributes tag _ | .value tag _ _ _ | .selfClosing tag => IsTagName tag.text
  | .text _ | .closeName _ => True

theorem isTagName_empty : IsTagName Name.empty.text := by
  rw [show Name.empty.text = "" from rfl]
  exact fun _ hc => absurd hc (by simp)

theorem isTagName_push {tag : Name} (h : IsTagName tag.text) {c : Char} (hslash : c ≠ '/') (hless : c ≠ '<')
    (hgreater : c ≠ '>') (hblank : Text.isBlank c = false) (i : Nat) : IsTagName (tag.push i c).text := by
  intro d hd
  rw [Name.text, collected, String.toList_ofList, List.mem_reverse, Name.push] at hd
  rcases List.mem_cons.1 hd with rfl | hd
  · simp [inTagName, hslash, hless, hgreater, hblank]
  · exact h d (by rwa [Name.text, collected, String.toList_ofList, List.mem_reverse])

theorem names_textEvents (run : List Char) : ∀ e ∈ textEvents run, e.Names := by
  intro e he
  unfold textEvents at he
  split at he
  · cases he
  · rw [List.mem_singleton.1 he]
    trivial

theorem names_attributeEvents (name value : List Char) : ∀ e ∈ attributeEvents name value, e.Names := by
  intro e he
  unfold attributeEvents at he
  split at he
  · cases he
  · rw [List.mem_singleton.1 he]
    trivial

/-- A state in which all tags have the names of tags. -/
def Names (stack : List String) (mode : Mode) : Prop := (∀ name ∈ stack, IsTagName name) ∧ mode.Names

theorem names_move {i : Nat} {stack : List String} {c : Char} {mode : Mode} {m : Move} (h : Names stack mode)
    (hmove : move i stack c mode = .ok m) : Names m.1 m.2.1 ∧ ∀ e ∈ m.2.2, e.Names := by
  obtain ⟨hstack, hmode⟩ := h
  have hnone : ∀ e ∈ ([] : List Event), e.Names := fun _ he => absurd he List.not_mem_nil
  have hone : ∀ (e : Event), e.Names → ∀ e' ∈ [e], e'.Names := fun e he e' he' => by
    rw [List.mem_singleton.1 he']
    exact he
  cases mode with
  | text run => grind [move, Names, Mode.Names, isTagName_empty, names_textEvents]
  | openName tag => grind [move, Names, Mode.Names, Event.Names, isTagName_push]
  | attributes tag name => grind [move, Names, Mode.Names, Event.Names, names_attributeEvents]
  | value tag name quoted value => cases quoted <;> grind [move, Names, Mode.Names, Event.Names, names_attributeEvents]
  | selfClosing tag => grind [move, Names, Mode.Names, Event.Names]
  | closeName tag =>
    have hsub : ∀ rest, closeThrough tag.text stack = some rest → tag.text ∈ stack ∧ ∀ name ∈ rest, name ∈ stack :=
      fun rest hrest => by
        rw [closeThrough_eq] at hrest
        split at hrest
        · rename_i hmem
          cases hrest
          exact ⟨hmem, fun name hn => (List.dropWhile_sublist _).subset (List.mem_of_mem_tail hn)⟩
        · cases hrest
    grind [move, Names, Mode.Names, Event.Names]

/-- **Tags have the names of tags**, those told and those open. -/
theorem Reached.names {cs : List Char} {es : List Event} {s : State} (h : Reached cs es s) :
    Names s.stack s.mode ∧ ∀ e ∈ es, e.Names := by
  induction h with
  | start => exact ⟨⟨fun _ hn => absurd hn List.not_mem_nil, trivial⟩, fun _ he => absurd he List.not_mem_nil⟩
  | step _ hmove ih =>
    obtain ⟨hnames, htold⟩ := names_move ih.1 hmove
    refine ⟨hnames, fun e he => ?_⟩
    rcases List.mem_append.1 he with he | he
    · exact ih.2 e he
    · exact htold e he

theorem names_events (text : String) : ∀ e ∈ (scan text).events, e.Names := by
  rcases Reached.ahead text.toList .start with ⟨es, s, hs⟩ | ⟨front, c, back, es, s, fault, heq, hs, hmove⟩
  · rw [List.nil_append] at hs
    rw [scan, hs.scan_end]
    intro e he
    rcases List.mem_append.1 he with he | he
    · exact hs.names.2 e he
    · cases hmode : s.mode with
      | text run =>
        rw [hmode] at he
        exact names_textEvents run e he
      | _ =>
        rw [hmode] at he
        cases he
  · rw [List.nil_append] at hs
    rw [scan, heq, hs.scan_error hmove]
    exact hs.names.2

theorem isTagName_of_unfinishedOpen {text tag : String} {index : Nat}
    (h : (scan text).fault = some (.unfinishedOpen tag index)) : IsTagName tag := by
  rcases fault_cases h with ⟨es, s, hs, hfault⟩ | ⟨front, c, back, es, s, heq, hs, hmove, hevents⟩
  · have hmode := hs.names.1.2
    cases hm : s.mode with
    | text run => rw [hm] at hfault; cases hfault
    | closeName name => rw [hm] at hfault; cases hfault
    | _ =>
      rw [hm] at hfault hmode
      cases hfault
      exact hmode
  · obtain ⟨index', stack, mode⟩ := s
    cases mode with
    | value tag name quoted value => cases quoted <;> grind [move]
    | _ => grind [move]

theorem isTagName_of_mismatchedClose {text tag expected : String} {index : Nat}
    (h : (scan text).fault = some (.mismatchedClose tag expected index)) : IsTagName expected := by
  rcases fault_cases h with ⟨es, s, _, hfault⟩ | ⟨front, c, back, es, s, heq, hs, hmove, hevents⟩
  · cases hm : s.mode <;> rw [hm] at hfault <;> cases hfault
  · obtain ⟨_, _, _, rfl, _⟩ := move_mismatchedClose hmove
    have hstack := hs.names.1.1
    cases hst : s.stack with
    | nil => exact fun _ hc => absurd hc (by simp)
    | cons top rest =>
      rw [hst] at hstack
      exact hstack top List.mem_cons_self

end Markup
end WorldAudit
