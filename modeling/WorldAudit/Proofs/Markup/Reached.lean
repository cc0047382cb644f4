import WorldAudit.Proofs.Markup.Printing
import WorldAudit.Text.Position
/-!
# Reached — how far a scan comes

A scan reaches a state after every character up to its first fault, and what it makes of the whole text is what it has
told so far and what that state makes of the rest (`Reached.scan`).  So a fault is that of one move from a state that is
reached, or of the end of the text (`fault_cases`).
-/
namespace WorldAudit
namespace Markup

/-- **A state that a scan reaches** after some characters, with the events told on the way. -/
inductive Reached : List Char → List Event → State → Prop
  | start : Reached [] [] .initial
  | step {cs : List Char} {es es' : List Event} {s : State} {c : Char} {stack : List String} {mode : Mode}
    (h : Reached cs es s) (hmove : move s.index s.stack c s.mode = .ok (stack, mode, es')) :
    Reached (cs ++ [c]) (es ++ es') ⟨s.index + c.utf8Size, stack, mode⟩

namespace Reached

variable {cs : List Char} {es : List Event} {s : State}

theorem index_eq (h : Reached cs es s) : s.index = Text.byteCount cs := by
  induction h with
  | start => rfl
  | @step cs _ _ _ c _ _ _ _ ih =>
    dsimp only
    rw [ih, Text.byteCount_append, Text.byteCount_cons, Text.byteCount_nil, Nat.add_zero]

/-- **What is told of a text** is what has been told of its start, and what the state reached makes of the rest. -/
theorem scan (h : Reached cs es s) (rest : List Char) :
    State.initial.scan (cs ++ rest) = ⟨es ++ (s.scan rest).events, (s.scan rest).fault⟩ := by
  induction h generalizing rest with
  | start => rfl
  | @step cs es es' s c stack mode _ hmove ih =>
    have hstep : s.scan (c :: rest) =
        ⟨es' ++ (State.scan ⟨s.index + c.utf8Size, stack, mode⟩ rest).events,
          (State.scan ⟨s.index + c.utf8Size, stack, mode⟩ rest).fault⟩ := by
      rw [State.scan]
      simp only [hmove]
    rw [List.append_assoc, List.singleton_append, ih, hstep, List.append_assoc]

/-- At a move that is a fault the scan ends. -/
theorem scan_error (h : Reached cs es s) {c : Char} {fault : Fault}
    (hmove : move s.index s.stack c s.mode = .error fault) (rest : List Char) :
    State.initial.scan (cs ++ c :: rest) = ⟨es, some fault⟩ := by
  have hstep : s.scan (c :: rest) = ⟨[], some fault⟩ := by
    rw [State.scan]
    simp only [hmove]
  rw [h.scan, hstep, List.append_nil]

theorem scan_end (h : Reached cs es s) :
    State.initial.scan cs = ⟨es ++ s.mode.finish.events, s.mode.finish.fault⟩ := by
  have := h.scan []
  rwa [List.append_nil] at this

/-- From a state that is reached the scan comes to the end of the text, or to a move that is a fault. -/
theorem ahead : ∀ (rest : List Char) {cs : List Char} {es : List Event} {s : State}, Reached cs es s →
    (∃ es' s', Reached (cs ++ rest) es' s') ∨
    ∃ mid c back es' s' fault, rest = mid ++ c :: back ∧ Reached (cs ++ mid) es' s' ∧
      move s'.index s'.stack c s'.mode = .error fault
  | [], cs, es, s, h => .inl ⟨es, s, by rwa [List.append_nil]⟩
  | c :: rest, cs, es, s, h => by
    cases hmove : move s.index s.stack c s.mode with
    | error fault => exact .inr ⟨[], c, rest, es, s, fault, rfl, by rwa [List.append_nil], hmove⟩
    | ok m =>
      rcases ahead rest (h.step hmove) with ⟨es', s', h'⟩ | ⟨mid, c', back, es', s', fault, rfl, h', hfault⟩
      · rw [List.append_assoc] at h'
        exact .inl ⟨es', s', h'⟩
      · rw [List.append_assoc] at h'
        exact .inr ⟨c :: mid, c', back, es', s', fault, rfl, h', hfault⟩

end Reached

/-- **Where a fault comes from**: from a move, which ends the scan, or from the end of the text inside a tag. -/
theorem fault_cases {text : String} {fault : Fault} (h : (scan text).fault = some fault) :
    (∃ es s, Reached text.toList es s ∧ s.mode.finish.fault = some fault) ∨
    ∃ front c back es s, text.toList = front ++ c :: back ∧ Reached front es s ∧
      move s.index s.stack c s.mode = .error fault ∧ (scan text).events = es := by
  rcases Reached.ahead text.toList .start with ⟨es, s, hs⟩ | ⟨front, c, back, es, s, fault', heq, hs, hmove⟩
  · rw [List.nil_append] at hs
    rw [Markup.scan, hs.scan_end] at h
    exact .inl ⟨es, s, hs, h⟩
  · rw [List.nil_append] at hs
    have hscan := hs.scan_error hmove back
    rw [← heq, ← Markup.scan] at hscan
    rw [hscan] at h
    obtain rfl := Option.some.inj h
    exact .inr ⟨front, c, back, es, s, heq, hs, hmove, by rw [hscan]⟩

/-- **An accepted text ends outside of all tags.** -/
theorem exists_reached_of_accepted {text : String} (h : (scan text).fault = none) :
    ∃ es stack run, Reached text.toList es ⟨Text.byteCount text.toList, stack, .text run⟩ ∧
      (scan text).events = es ++ textEvents run := by
  rcases Reached.ahead text.toList .start with ⟨es, s, hs⟩ | ⟨front, c, back, es, s, fault, heq, hs, hmove⟩
  · rw [List.nil_append] at hs
    have hindex := hs.index_eq
    rw [Markup.scan, hs.scan_end] at h ⊢
    obtain ⟨index, stack, mode⟩ := s
    obtain rfl : index = _ := hindex
    cases mode with
    | text run => exact ⟨es, stack, run, hs, rfl⟩
    | _ => cases h
  · rw [List.nil_append] at hs
    have hscan := hs.scan_error hmove back
    rw [← heq, ← Markup.scan] at hscan
    rw [hscan] at h
    cases h

end Markup
end WorldAudit
