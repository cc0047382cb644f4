import WorldAudit.Proofs.Markup.Closing
/-!
# Location — where a fault shows

A fault that a character gives rise to has the index of that character: what is before it may be the start of markup,
and with it there is this fault, whatever follows (`OffendsAt`).  A tag that is cut off has the index at which its name
starts, right behind `<` or `</` (`EndsInTag`).  If it is cut off before its name there is no such index and it has zero
instead, which is not where the tag is (`located_iff`).
-/
namespace WorldAudit
namespace Markup

/-- What a character is that is called so. -/
def Stray.Is : Stray → Char → Prop
  | .slash, c => c = '/'
  | .less, c => c = '<'
  | .equals, c => c = '='
  | .quote, c => c = '"'
  | .blank, c => Text.isBlank c = true

namespace Fault

/-- Whether a text is at fault only for ending where it does. -/
def isUnfinished : Fault → Bool
  | .unfinishedOpen _ _ | .unfinishedClose _ _ => true
  | .stray _ _ | .tagEndExpected _ | .mismatchedClose _ _ _ => false

/-- What the character is that gives rise to a fault. -/
def Offender (c : Char) : Fault → Prop
  | .stray found _ => found.Is c
  | .tagEndExpected _ => c ≠ '>'
  | .mismatchedClose _ _ _ => c = '>'
  | .unfinishedOpen _ _ | .unfinishedClose _ _ => False

/-- A tag that is cut off has a name, or some of it. -/
def HasName : Fault → Prop
  | .unfinishedOpen tag _ | .unfinishedClose tag _ => tag ≠ ""
  | .stray _ _ | .tagEndExpected _ | .mismatchedClose _ _ _ => True

end Fault

/-- **A character of a text, at a byte index, that offends**: what is before it is at fault for ending there at most, and
with it the fault is there, whatever follows. -/
def OffendsAt (text : String) (index : Nat) (c : Char) : Prop :=
  ∃ before after : String, text = before ++ String.singleton c ++ after ∧ index = Text.byteCount before.toList ∧
    (∀ fault ∈ (scan before).fault, fault.isUnfinished = true) ∧
    ∀ rest : String, (scan (before ++ String.singleton c ++ rest)).fault = (scan text).fault

/-- **The tag that a text ends in** begins behind `before`: so much of the text is accepted, and no more. -/
structure EndsInTag (text before : String) : Prop where
  accepted : (scan before).fault = none
  longest : ∀ front : String, front.toList <+: text.toList → (scan front).fault = none → front.toList <+: before.toList

/-- **A fault shows where its index says**: at the character that offends, or right behind the `<` or `</` of the tag
that the text ends in, where the name of the tag is. -/
def Fault.LocatedIn (text : String) : Fault → Prop
  | .unfinishedOpen tag index => ∃ before after : String, EndsInTag text before ∧
    text = before ++ "<" ++ tag ++ after ∧ index = Text.byteCount (before ++ "<").toList
  | .unfinishedClose tag index => ∃ before : String, EndsInTag text before ∧
    text = before ++ "</" ++ tag ∧ index = Text.byteCount (before ++ "</").toList
  | .mismatchedClose tag _ index => OffendsAt text index '>' ∧ ∃ before after : String,
    text = before ++ "</" ++ tag ++ ">" ++ after ∧ index = Text.byteCount (before ++ "</" ++ tag).toList
  | fault => ∃ c, fault.Offender c ∧ OffendsAt text fault.index c

/-! ## Inside a tag -/

/-- The name, once it has begun, starts at `i`. -/
def Name.StartsAt (name : Name) (i : Nat) : Prop := name.start = if name.chars = [] then 0 else i

theorem Name.startsAt_push {name : Name} {i j : Nat} (h : name.StartsAt i) (hj : name.chars = [] → j = i) (c : Char) :
    (name.push j c).StartsAt i := by
  unfold StartsAt push at *
  by_cases hempty : name.chars = [] <;> simp_all

/-- **What has been read of a tag**, whose `<` ends at byte `start`. -/
def Mode.Holds (start : Nat) (read : List Char) : Mode → Prop
  | .text _ => False
  | .openName tag => read = tag.chars.reverse ∧ tag.StartsAt start
  | .attributes tag _ | .value tag _ _ _ | .selfClosing tag => tag.chars.reverse <+: read ∧ tag.StartsAt start
  | .closeName tag => read = '/' :: tag.chars.reverse ∧ tag.StartsAt (start + 1)

/-- Inside a tag a move reads on, or leads out of it. -/
theorem holds_move {start i : Nat} {read : List Char} {stack : List String} {c : Char} {mode : Mode} {m : Move}
    (h : mode.Holds start read) (hi : i = start + Text.byteCount read) (hmove : move i stack c mode = .ok m) :
    (∃ run, m.2.1 = .text run) ∨ m.2.1.Holds start (read ++ [c]) := by
  have hread : ∀ {name : List Char}, name <+: read → name <+: read ++ [c] := fun h =>
    h.trans (List.prefix_append read [c])
  cases mode with
  | text run => exact h.elim
  | openName tag =>
    obtain ⟨rfl, hstart⟩ := h
    have hpush : (tag.push i c).StartsAt start := Name.startsAt_push hstart (fun hempty => by simp [hi, hempty]) c
    have hchars : tag.chars.reverse ++ [c] = (tag.push i c).chars.reverse := by simp [Name.push]
    have hslash : tag.chars = [] → tag.StartsAt (start + 1) := fun hempty => by
      simpa [Name.StartsAt, hempty] using hstart
    grind [move, Mode.Holds]
  | attributes tag name => grind [move, Mode.Holds]
  | value tag name quoted value => cases quoted <;> grind [move, Mode.Holds]
  | selfClosing tag => grind [move, Mode.Holds]
  | closeName tag =>
    obtain ⟨rfl, hstart⟩ := h
    have hpush : (tag.push i c).StartsAt (start + 1) :=
      Name.startsAt_push hstart (fun hempty => by simp [hi, hempty]; rfl) c
    have hchars : '/' :: tag.chars.reverse ++ [c] = '/' :: (tag.push i c).chars.reverse := by simp [Name.push]
    grind [move, Mode.Holds]

theorem Mode.Holds.finish_fault {start : Nat} {read : List Char} {mode : Mode} (h : mode.Holds start read) :
    mode.finish.fault ≠ none := by
  cases mode with
  | text run => exact h.elim
  | _ => simp [Mode.finish]

/-- **Inside a tag** a scan knows what has been read of it, and no more than what is before the tag is accepted. -/
theorem Reached.inTag {cs : List Char} {es : List Event} {s : State} (h : Reached cs es s) :
    (∃ run, s.mode = .text run) ∨
    ∃ before read, cs = before ++ '<' :: read ∧ (State.initial.scan before).fault = none ∧
      s.mode.Holds (Text.byteCount before + 1) read ∧
      ∀ front, front <+: read → (State.initial.scan (before ++ '<' :: front)).fault ≠ none := by
  induction h with
  | start => exact .inl ⟨[], rfl⟩
  | @step cs es es' s c stack mode h hmove ih =>
    have hstep := h.step hmove
    rcases ih with ⟨run, hmode⟩ | ⟨before, read, rfl, haccepted, hholds, hlongest⟩
    · by_cases hc : c = '<'
      · obtain rfl := hc
        rw [hmode, move, if_pos rfl] at hmove
        cases hmove
        refine .inr ⟨cs, [], rfl, ?_, ⟨rfl, rfl⟩, ?_⟩
        · rw [h.scan_end, hmode]
          rfl
        · intro front hfront
          obtain rfl := List.prefix_nil.1 hfront
          rw [hstep.scan_end]
          exact Option.some_ne_none _
      · rw [hmode, move, if_neg hc] at hmove
        cases hmove
        exact .inl ⟨c :: run, rfl⟩
    · have hindex : s.index = Text.byteCount before + 1 + Text.byteCount read := by
        rw [h.index_eq, Text.byteCount_append, Text.byteCount_cons, ← Nat.add_assoc]
        rfl
      rcases holds_move hholds hindex hmove with htext | hholds'
      · exact .inl htext
      · rw [List.append_assoc, List.cons_append] at hstep ⊢
        refine .inr ⟨before, read ++ [c], rfl, haccepted, hholds', ?_⟩
        intro front hfront
        rcases List.prefix_concat_iff.1 hfront with rfl | hfront
        · rw [hstep.scan_end]
          exact hholds'.finish_fault
        · exact hlongest front hfront

/-! ## Where faults show -/

/-- What a move is at fault for is the character, at its index. -/
theorem move_error {i : Nat} {stack : List String} {c : Char} {mode : Mode} {fault : Fault}
    (h : move i stack c mode = .error fault) : fault.index = i ∧ fault.Offender c ∧ fault.isUnfinished = false := by
  cases mode with
  | value tag name quoted value =>
    cases quoted <;> grind [move, Fault.index, Fault.Offender, Fault.isUnfinished, Stray.Is]
  | _ => grind [move, Fault.index, Fault.Offender, Fault.isUnfinished, Stray.Is]

theorem Mode.finish_fault {mode : Mode} {fault : Fault} (h : mode.finish.fault = some fault) :
    fault.isUnfinished = true := by
  cases mode with
  | text run => cases h
  | _ => cases h; rfl

section Faults

variable {text : String} {fault : Fault}

theorem OffendsAt.lt {index : Nat} {c : Char} (h : OffendsAt text index c) : index < Text.byteCount text.toList := by
  obtain ⟨before, after, rfl, rfl, -, -⟩ := h
  have := c.utf8Size_pos
  simp only [String.toList_append, String.toList_singleton, Text.byteCount_append, Text.byteCount_cons]
  omega

/-- **A fault of a character is there**, and at the end of what is before it a text is not at fault but for ending. -/
theorem exists_offendsAt (h : (scan text).fault = some fault) (hfault : fault.isUnfinished = false) :
    ∃ c, fault.Offender c ∧ OffendsAt text fault.index c := by
  rcases fault_cases h with ⟨es, s, _, hend⟩ | ⟨front, c, back, es, s, heq, hs, hmove, -⟩
  · rw [Mode.finish_fault hend] at hfault
    cases hfault
  · obtain ⟨hindex, hoffender, -⟩ := move_error hmove
    refine ⟨c, hoffender, String.ofList front, String.ofList back, String.toList_inj.1 (by simp [heq]), ?_, ?_, ?_⟩
    · rw [hindex, hs.index_eq, String.toList_ofList]
    · intro fault' hfault'
      rw [scan, String.toList_ofList, hs.scan_end] at hfault'
      exact Mode.finish_fault hfault'
    · intro rest
      rw [h]
      simp [scan, hs.scan_error hmove]

theorem endsInTag_of_longest {before read : List Char} (heq : text.toList = before ++ '<' :: read)
    (haccepted : (State.initial.scan before).fault = none)
    (hlongest : ∀ front, front <+: read → (State.initial.scan (before ++ '<' :: front)).fault ≠ none) :
    EndsInTag text (String.ofList before) where
  accepted := by rwa [scan, String.toList_ofList]
  longest front hfront hnone := by
    rw [String.toList_ofList]
    rcases List.prefix_or_prefix_of_prefix hfront (heq ▸ List.prefix_append before _) with hshort | ⟨tail, htail⟩
    · exact hshort
    · rw [heq, ← htail, List.prefix_append_right_inj, List.prefix_cons_iff] at hfront
      rcases hfront with rfl | ⟨tail, rfl, hfront⟩
      · have hfront : front.toList = before := by rw [← htail, List.append_nil]
        exact hfront ▸ List.prefix_refl front.toList
      · rw [scan, ← htail] at hnone
        exact absurd hnone (hlongest tail hfront)

theorem Name.text_eq_empty_iff (name : Name) : name.text = "" ↔ name.chars = [] := by
  simp [Name.text, collected, ← String.toList_inj]

theorem Name.StartsAt.start_eq {name : Name} {i : Nat} (h : name.StartsAt i) :
    name.start = if name.text = "" then 0 else i := by
  simp only [Name.text_eq_empty_iff]
  exact h

theorem Mode.Holds.finish_cases {start : Nat} {read : List Char} {mode : Mode} (h : mode.Holds start read)
    (hend : mode.finish.fault = some fault) :
    (∃ tag : Name, fault = .unfinishedOpen tag.text tag.start ∧ tag.chars.reverse <+: read ∧ tag.StartsAt start) ∨
    ∃ tag : Name, fault = .unfinishedClose tag.text tag.start ∧ read = '/' :: tag.chars.reverse ∧
      tag.StartsAt (start + 1) := by
  cases mode with
  | text run => exact h.elim
  | openName tag => exact .inl ⟨tag, (Option.some.inj hend).symm, h.1 ▸ List.prefix_refl _, h.2⟩
  | closeName tag => exact .inr ⟨tag, (Option.some.inj hend).symm, h⟩
  | attributes tag | value tag | selfClosing tag => exact .inl ⟨tag, (Option.some.inj hend).symm, h⟩

/-- **A tag that is cut off**: the index is where its name starts, or zero. -/
theorem unfinished_cases (h : (scan text).fault = some fault) (hfault : fault.isUnfinished = true) :
    (∃ before tag after, EndsInTag text before ∧ text = before ++ "<" ++ tag ++ after ∧
      fault = .unfinishedOpen tag (if tag = "" then 0 else Text.byteCount (before ++ "<").toList)) ∨
    ∃ before tag, EndsInTag text before ∧ text = before ++ "</" ++ tag ∧
      fault = .unfinishedClose tag (if tag = "" then 0 else Text.byteCount (before ++ "</").toList) := by
  have hless : '<'.utf8Size = 1 := rfl
  have hslash : '/'.utf8Size = 1 := rfl
  rcases fault_cases h with ⟨es, s, hs, hend⟩ | ⟨front, c, back, es, s, heq, hs, hmove, -⟩
  · rcases hs.inTag with ⟨run, hmode⟩ | ⟨before, read, heq, haccepted, hholds, hlongest⟩
    · rw [hmode] at hend
      cases hend
    · have htag := endsInTag_of_longest heq haccepted hlongest
      rcases hholds.finish_cases hend with ⟨tag, rfl, ⟨after, rfl⟩, hstart⟩ | ⟨tag, rfl, rfl, hstart⟩
      · refine .inl ⟨_, tag.text, String.ofList after, htag, String.toList_inj.1 ?_, ?_⟩
        · simp [heq, Name.text, collected]
        · rw [hstart.start_eq]
          simp [Text.byteCount_append, hless]
      · refine .inr ⟨_, tag.text, htag, String.toList_inj.1 ?_, ?_⟩
        · simp [heq, Name.text, collected]
        · rw [hstart.start_eq]
          simp [Text.byteCount_append, hless, hslash]
  · rw [(move_error hmove).2.2] at hfault
    cases hfault

theorem locatedIn_of_hasName (h : (scan text).fault = some fault) (hname : fault.HasName) : fault.LocatedIn text := by
  cases fault with
  | stray found index => exact exists_offendsAt h rfl
  | tagEndExpected index => exact exists_offendsAt h rfl
  | mismatchedClose tag expected index =>
    obtain ⟨c, rfl, hoffends⟩ := exists_offendsAt h rfl
    have hscan : scan text = ⟨(scan text).events, some (.mismatchedClose tag expected index)⟩ := by rw [← h]
    obtain ⟨before, after, -, heq, -, -, -, -, hindex⟩ := (scan_eq_mismatchedClose_iff _ _ _ _ _).1 hscan
    exact ⟨hoffends, before, after, heq, hindex⟩
  | unfinishedOpen tag index =>
    rcases unfinished_cases h rfl with ⟨before, tag', after, htag, heq, hfault⟩ | ⟨_, _, _, _, hfault⟩
    · obtain ⟨rfl, rfl⟩ := Fault.unfinishedOpen.inj hfault
      exact ⟨before, after, htag, heq, if_neg hname⟩
    · cases hfault
  | unfinishedClose tag index =>
    rcases unfinished_cases h rfl with ⟨_, _, _, _, _, hfault⟩ | ⟨before, tag', htag, heq, hfault⟩
    · cases hfault
    · obtain ⟨rfl, rfl⟩ := Fault.unfinishedClose.inj hfault
      exact ⟨before, htag, heq, if_neg hname⟩

theorem index_eq_zero (h : (scan text).fault = some fault) (hname : ¬ fault.HasName) : fault.index = 0 := by
  cases fault with
  | unfinishedOpen tag index | unfinishedClose tag index =>
    obtain rfl : tag = "" := not_not.1 hname
    rcases unfinished_cases h rfl with ⟨_, tag, _, _, _, hfault⟩ | ⟨_, tag, _, _, hfault⟩
    · cases hfault <;> rfl
    · cases hfault <;> rfl
  | _ => exact absurd trivial hname

/-- The name of a tag is not at the start of a text, where its `<` is at the earliest. -/
theorem Fault.LocatedIn.index_ne_zero (h : fault.LocatedIn text) (hfault : fault.isUnfinished = true) :
    fault.index ≠ 0 := by
  have hpos : ∀ (before : String) (c : Char) (cs : List Char), Text.byteCount (before.toList ++ c :: cs) ≠ 0 := by
    intro before c cs
    have := c.utf8Size_pos
    rw [Text.byteCount_append, Text.byteCount_cons]
    omega
  cases fault with
  | unfinishedOpen tag index =>
    obtain ⟨before, after, -, -, rfl⟩ := h
    rw [String.toList_append]
    exact hpos before '<' []
  | unfinishedClose tag index =>
    obtain ⟨before, -, -, rfl⟩ := h
    rw [String.toList_append]
    exact hpos before '<' ['/']
  | _ => cases hfault

/-- **Where a fault shows.**  The index of a fault locates it, whatever is before it, unless it is that of a tag cut off
before its name: that one has the index zero, which locates nothing.  A fault of a character has an index inside of the
text. -/
theorem located_iff (h : (scan text).fault = some fault) :
    (fault.LocatedIn text ↔ fault.HasName) ∧ (¬ fault.HasName → fault.index = 0) ∧
    (fault.isUnfinished = false → fault.index < Text.byteCount text.toList) := by
  refine ⟨⟨fun hlocated => ?_, locatedIn_of_hasName h⟩, index_eq_zero h, fun hfault => ?_⟩
  · by_contra hname
    have hfault : fault.isUnfinished = true := by
      cases fault with
      | unfinishedOpen tag index | unfinishedClose tag index => rfl
      | _ => exact absurd trivial hname
    exact hlocated.index_ne_zero hfault (index_eq_zero h hname)
  · obtain ⟨_, _, hoffends⟩ := exists_offendsAt h hfault
    exact hoffends.lt

end Faults

/-- A tag that is cut off in an attribute, after text of more bytes than characters. -/
theorem cut_off_in_attribute :
    (scan "é<p a").fault = some (.unfinishedOpen "p" 3) ∧ (Fault.unfinishedOpen "p" 3).LocatedIn "é<p a" := by
  have hscan : (scan "é<p a").fault = some (.unfinishedOpen "p" 3) := by decide +kernel
  exact ⟨hscan, (located_iff hscan).1.2 (by simp [Fault.HasName])⟩

/-- A tag that is cut off before its name, which is at three and not at zero. -/
theorem cut_off_before_name :
    (scan "ab<").fault = some (.unfinishedOpen "" 0) ∧ ¬ (Fault.unfinishedOpen "" 0).LocatedIn "ab<" :=
  ⟨by decide +kernel, fun hlocated => hlocated.index_ne_zero rfl rfl⟩

end Markup
end WorldAudit
