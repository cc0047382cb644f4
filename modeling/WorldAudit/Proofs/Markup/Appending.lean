import WorldAudit.Proofs.Markup.Closing
/-!
# Appending — what is written behind an accepted text

Plain text goes on with the text that a scan stands in (`scan_append_plain`), so it tells of one text more only if there
is none at the end.  A closing tag that is accepted is told of after all that has been told (`scan_append_closing`).
-/
namespace WorldAudit
namespace Markup

theorem Reached.text_append {es : List Event} {stack : List String} (more : List Char) (hmore : '<' ∉ more) :
    ∀ {cs run : List Char} {index : Nat}, Reached cs es ⟨index, stack, .text run⟩ →
      ∃ index', Reached (cs ++ more) es ⟨index', stack, .text (more.reverse ++ run)⟩ := by
  induction more with
  | nil => exact fun h => ⟨_, by rwa [List.append_nil]⟩
  | cons c more ih =>
    intro cs run index h
    obtain ⟨hc, hmore⟩ := not_or.1 (mt List.mem_cons.2 hmore)
    have hmove : move index stack c (.text run) = .ok (stack, .text (c :: run), []) := if_neg (Ne.symm hc)
    have hstep := h.step hmove
    rw [List.append_nil] at hstep
    obtain ⟨index', h'⟩ := ih hmore hstep
    exact ⟨index', by simpa using h'⟩

variable {text : String} {es : List Event} (h : scan text = ⟨es, none⟩)

include h

/-- **Plain text behind a text** makes what the text ends in longer. -/
theorem scan_append_plain {more : String} (hmore : '<' ∉ more.toList) :
    ∃ front run, es = front ++ textEvents run ∧
      scan (text ++ more) = ⟨front ++ textEvents (more.toList.reverse ++ run), none⟩ := by
  have hfault : (scan text).fault = none := by rw [h]
  obtain ⟨front, stack, run, hs, hevents⟩ := exists_reached_of_accepted hfault
  obtain ⟨index, hs'⟩ := hs.text_append more.toList hmore
  rw [h] at hevents
  refine ⟨front, run, hevents, ?_⟩
  rw [scan, String.toList_append, hs'.scan_end]
  rfl

/-- **A closing tag behind a text** is told of after it, if it is accepted. -/
theorem scan_append_closing {tag : String} (htag : '>' ∉ tag.toList)
    (haccepted : (scan (text ++ "</" ++ tag ++ ">")).fault = none) :
    scan (text ++ "</" ++ tag ++ ">") = ⟨es ++ [.closed tag], none⟩ := by
  obtain ⟨stack, hopen⟩ := Option.isSome_iff_exists.1 (h ▸ isSome_openAfter_events text)
  have hne : stack ≠ [] := by
    rintro rfl
    rw [(scan_eq_straySlash_iff _ es _).2 ⟨text, tag ++ ">", by simp [String.append_assoc], h, hopen, rfl⟩] at haccepted
    cases haccepted
  obtain ⟨name, hchars, hs⟩ := reached_closeName_iff.2 ⟨text, rfl, htag, h, hopen, hne, rfl⟩
  have htext : name.text = tag := by rw [Name.text, collected, hchars, List.reverse_reverse, String.ofList_toList]
  have hall : (text ++ "</" ++ tag ++ ">").toList = (text.toList ++ '<' :: '/' :: tag.toList) ++ ['>'] := by simp
  rw [scan, hall] at haccepted ⊢
  cases hclose : closeThrough tag stack with
  | none =>
    have hmove : ∀ i, move i stack '>' (.closeName name) = .error (.mismatchedClose tag (stack.headD "") i) :=
      fun i => by rw [move, if_pos rfl, htext, hclose]
    rw [hs.scan_error (hmove _)] at haccepted
    cases haccepted
  | some rest =>
    have hmove : ∀ i, move i stack '>' (.closeName name) = .ok (rest, .text [], [.closed tag]) :=
      fun i => by rw [move, if_pos rfl, htext, hclose]
    rw [(hs.step (hmove _)).scan_end]
    exact congrArg (Scan.mk · none) (List.append_nil _)

end Markup
end WorldAudit
