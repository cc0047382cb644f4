import Mathlib.Data.List.TakeWhile
import WorldAudit.Proofs.Script.Shape
/-!
# Quote — quoted arguments, whole and split

A journal topic or a levelled list in closed quotes is followed by a second argument.  Where the rest of the line
supplies it, the quotes hold.  Where it does not, the quoted text is read again without regard to its quotes, and can be
split at a separator inside them.  When that happens is said here without a reader (`quotes_hold_iff`).
-/
namespace WorldAudit
namespace Script

/-! ## Second arguments -/

/-- **A text that supplies an index**: separators, and then digits, all that follow one another. -/
def SuppliesIndex (digits cs : List Char) : Prop :=
  ∃ gap tail, Gap gap ∧ digits ≠ [] ∧ (∀ d ∈ digits, Text.isDigit d = true) ∧
    (∀ c ∈ tail.head?, Text.isDigit c = false) ∧ cs = gap ++ (digits ++ tail)

/-- **A text that supplies an entry**: separators, and then an id as an argument. -/
def SuppliesEntry (entry cs : List Char) : Prop :=
  ∃ gap arg tail, Gap gap ∧ Argument entry arg ∧ Ends tail ∧ cs = gap ++ (arg ++ tail)

/-- Digits that write an index. -/
def WritesIndex (digits : List Char) (index : Int) : Prop :=
  (∀ d ∈ digits, d.isDigit = true) ∧ numberOf digits ≤ greatestIndex ∧ index = numberOf digits

theorem indexDigits?_eq_some_iff {cs digits : List Char} : indexDigits? cs = some digits ↔ SuppliesIndex digits cs := by
  constructor
  · intro h
    obtain ⟨rest, hrest, h⟩ := Option.bind_eq_some_iff.1 h
    obtain ⟨gap, hgap, _, heq⟩ := separated?_eq_some_iff.1 hrest
    split at h
    · cases h
    · rename_i hne
      obtain rfl := Option.some.inj h
      refine ⟨gap, rest.dropWhile Text.isDigit, hgap, hne, List.all_eq_true.1 List.all_takeWhile, fun c hc => ?_, ?_⟩
      · have := List.head?_dropWhile_not Text.isDigit rest
        rw [Option.mem_def.1 hc] at this
        simpa using this
      · rw [List.takeWhile_append_dropWhile, heq]
  · rintro ⟨gap, tail, hgap, hne, hdigits, htail, rfl⟩
    exact indexDigits?_gap hgap hne hdigits htail

theorem readIndex?_eq_some_iff {digits : List Char} {index : Int} :
    readIndex? digits = some index ↔ WritesIndex digits index := by
  constructor
  · intro h
    by_cases hdigits : ∀ d ∈ digits, d.isDigit = true
    · rw [readIndex?_written hdigits] at h
      split at h
      · rename_i hle
        exact ⟨hdigits, hle, (Option.some.inj h).symm⟩
      · cases h
    · rw [readIndex?, if_neg (by rwa [List.all_eq_true])] at h
      cases h
  · rintro ⟨hdigits, hle, rfl⟩
    rw [readIndex?_written hdigits, if_pos hle]

/-! ## Topics split off a quoted text -/

/-- **A quoted text that can be split** into a topic and what supplies an index. -/
def Splits (topic digits q : List Char) : Prop := topic ≠ [] ∧ ∃ rest, SuppliesIndex digits rest ∧ q = topic ++ rest

/-- **The last place at which a quoted text can be split.** -/
def SplitsLast (topic digits q : List Char) : Prop :=
  Splits topic digits q ∧ ∀ topic' digits', Splits topic' digits' q → topic'.length ≤ topic.length

theorem splits_cons {topic digits cs : List Char} {c : Char} :
    Splits topic digits (c :: cs) ↔
      (∃ topic', topic = c :: topic' ∧ Splits topic' digits cs) ∨ (topic = [c] ∧ SuppliesIndex digits cs) := by
  constructor
  · rintro ⟨hne, rest, hrest, heq⟩
    cases topic with
    | nil => exact absurd rfl hne
    | cons d topic' =>
      obtain ⟨rfl, rfl⟩ := List.cons.inj heq
      cases topic' with
      | nil => exact .inr ⟨rfl, hrest⟩
      | cons e topic' => exact .inl ⟨e :: topic', rfl, by simp, rest, hrest, rfl⟩
  · rintro (⟨topic', rfl, _, rest, hrest, rfl⟩ | ⟨rfl, hrest⟩)
    · exact ⟨by simp, rest, hrest, rfl⟩
    · exact ⟨by simp, cs, hrest, rfl⟩

theorem splitQuote?_eq_none_iff {q : List Char} :
    splitQuote? q = none ↔ ∀ topic digits, ¬ Splits topic digits q := by
  induction q with
  | nil =>
    refine ⟨fun _ topic digits => ?_, fun _ => rfl⟩
    rintro ⟨hne, rest, _, heq⟩
    exact hne (List.append_eq_nil_iff.1 heq.symm).1
  | cons c cs ih =>
    rw [splitQuote?]
    cases hcs : splitQuote? cs with
    | some p =>
      refine ⟨fun h => (by cases h), fun h => ?_⟩
      rw [hcs] at ih
      have : ∀ topic digits, ¬ Splits topic digits cs := fun topic digits hs =>
        h (c :: topic) digits (splits_cons.2 (.inl ⟨topic, rfl, hs⟩))
      cases ih.2 this
    | none =>
      have hnone := ih.1 hcs
      constructor
      · intro h topic digits hs
        rcases splits_cons.1 hs with ⟨topic', _, hs⟩ | ⟨_, hs⟩
        · exact hnone topic' digits hs
        · rw [Option.map_eq_none_iff] at h
          rw [indexDigits?_eq_some_iff.2 hs] at h
          cases h
      · intro h
        refine Option.map_eq_none_iff.2 (Option.eq_none_iff_forall_ne_some.2 fun digits hd => ?_)
        exact h [c] digits (splits_cons.2 (.inr ⟨rfl, indexDigits?_eq_some_iff.1 hd⟩))

theorem splitsLast_of_splitQuote? {q topic digits : List Char} (h : splitQuote? q = some (topic, digits)) :
    SplitsLast topic digits q := by
  induction q generalizing topic digits with
  | nil => cases h
  | cons c cs ih =>
    rw [splitQuote?] at h
    cases hcs : splitQuote? cs with
    | some p =>
      -- a split of the tail lies behind any split here, so it is the one taken
      obtain ⟨topic', digits'⟩ := p
      rw [hcs] at h
      obtain ⟨rfl, rfl⟩ := Prod.mk.inj (Option.some.inj h)
      obtain ⟨hs, hlast⟩ := ih hcs
      refine ⟨splits_cons.2 (.inl ⟨topic', rfl, hs⟩), fun topic₁ digits₁ h₁ => ?_⟩
      rcases splits_cons.1 h₁ with ⟨topic₂, rfl, h₂⟩ | ⟨rfl, _⟩
      · simpa using hlast topic₂ digits₁ h₂
      · simp
    | none =>
      rw [hcs] at h
      obtain ⟨digits', hdigits, heq⟩ := Option.map_eq_some_iff.1 h
      obtain ⟨rfl, rfl⟩ := Prod.mk.inj heq
      refine ⟨splits_cons.2 (.inr ⟨rfl, indexDigits?_eq_some_iff.1 hdigits⟩), fun topic₁ digits₁ h₁ => ?_⟩
      rcases splits_cons.1 h₁ with ⟨topic₂, _, h₂⟩ | ⟨rfl, _⟩
      · exact absurd h₂ (splitQuote?_eq_none_iff.1 hcs topic₂ digits₁)
      · exact Nat.le_refl _

theorem SplitsLast.unique {q topic topic' digits digits' : List Char} (h : SplitsLast topic digits q)
    (h' : SplitsLast topic' digits' q) : topic = topic' ∧ digits = digits' := by
  obtain ⟨⟨hne, rest, hrest, heq⟩, hlast⟩ := h
  obtain ⟨⟨hne', rest', hrest', heq'⟩, hlast'⟩ := h'
  have hlength : topic.length = topic'.length :=
    Nat.le_antisymm (hlast' topic digits ⟨hne, rest, hrest, heq⟩) (hlast topic' digits' ⟨hne', rest', hrest', heq'⟩)
  obtain ⟨rfl, rfl⟩ := List.append_inj (heq.symm.trans heq') hlength
  have hdigits := indexDigits?_eq_some_iff.2 hrest
  rw [indexDigits?_eq_some_iff.2 hrest'] at hdigits
  exact ⟨rfl, (Option.some.inj hdigits).symm⟩

/-- **A quoted text is split where it can be split last.** -/
theorem splitQuote?_eq_some_iff {q topic digits : List Char} :
    splitQuote? q = some (topic, digits) ↔ SplitsLast topic digits q := by
  refine ⟨splitsLast_of_splitQuote?, fun h => ?_⟩
  cases hq : splitQuote? q with
  | none => exact absurd h.1 (splitQuote?_eq_none_iff.1 hq topic digits)
  | some p =>
    obtain ⟨rfl, rfl⟩ := h.unique (splitsLast_of_splitQuote? hq)
    rfl

/-! ## Lines with a quoted argument -/

/-- The line of a word, a text in closed quotes and a rest. -/
def quotedLine (word gap q r : List Char) : List Char := word ++ (gap ++ '"' :: (q ++ '"' :: r))

/-- **The quotes hold**: a command is read only if the rest of the line supplies the second argument, and then it
carries that argument, and the quoted topic as a whole. -/
def QuotesHold (word q r : List Char) (command : Option Command) : Prop :=
  ∀ c, command = some c →
    (word ∈ journalVerbs → ∃ digits index, SuppliesIndex digits r ∧ WritesIndex digits index ∧
      c = .journal (String.ofList q) index) ∧
    (word ∈ levelledVerbs → ∃ entry, SuppliesEntry entry r ∧ c = .use (String.ofList entry))

section Lines

variable {word gap q r : List Char}

theorem laid_quotedLine (hword : word ∈ words) (hgap : Gap gap) :
    Laid word ('"' :: (q ++ '"' :: r)) (skipSeparators (quotedLine word gap q r)) := by
  have hbare : BeginsBare ('"' :: (q ++ '"' :: r)) := by rintro _ ⟨⟩; decide
  have hlead : ∀ c ∈ ([] : List Char), isSeparator c = true := fun _ hc => absurd hc List.not_mem_nil
  exact laid_lead hlead hword hgap hbare

variable (hne : q ≠ []) (hq : '"' ∉ q)

include hne hq

/-! ### Journals -/

theorem command?_quotedTopic (hgap : Gap gap) (hword : word ∈ journalVerbs)
    (harrow : ¬ HasArrow (quotedLine word gap q r)) :
    command? (String.ofList (quotedLine word gap q r)) =
      (((indexDigits? r).map fun digits => (q, digits)).or (splitQuote? q)).bind fun p =>
        (readIndex? p.2).map (.journal (String.ofList p.1)) := by
  rw [← journalWords_eq] at hword
  have hlaid := laid_quotedLine (q := q) (r := r) (journalWords_subset hword) hgap
  rw [(command?_of_laid harrow hlaid).2.2.1 hword, journal?, hlaid.arguments? journalWords_subset, if_pos hword]
  show ((topicAndIndex? ('"' :: (q ++ '"' :: r))).bind _).join = _
  rw [topicAndIndex?_quoted hne hq]
  cases ((indexDigits? r).map fun digits => (q, digits)).or (splitQuote? q) <;> rfl

/-- **When the quotes of a journal topic hold**: the rest supplies an index, or where the topic can be split last the
digits write none. -/
theorem quotesHold_journal_iff (hgap : Gap gap) (hword : word ∈ journalVerbs)
    (harrow : ¬ HasArrow (quotedLine word gap q r)) :
    QuotesHold word q r (command? (String.ofList (quotedLine word gap q r))) ↔
      (∃ digits, SuppliesIndex digits r) ∨
        ∀ topic digits index, SplitsLast topic digits q → ¬ WritesIndex digits index := by
  rw [command?_quotedTopic hne hq hgap hword harrow]
  cases hr : indexDigits? r with
  | some digits =>
    have hsupplies := indexDigits?_eq_some_iff.1 hr
    refine ⟨fun _ => .inl ⟨digits, hsupplies⟩, fun _ c hc => ⟨fun _ => ?_, fun hl => ?_⟩⟩
    · obtain ⟨index, hindex, rfl⟩ := Option.map_eq_some_iff.1 hc
      exact ⟨digits, index, hsupplies, readIndex?_eq_some_iff.1 hindex, rfl⟩
    · exact absurd hl (journal_only word (journalWords_eq ▸ hword)).2.2
  | none =>
    have hnone : ∀ digits, ¬ SuppliesIndex digits r := fun digits hd => by
      rw [indexDigits?_eq_some_iff.2 hd] at hr
      cases hr
    constructor
    · refine fun h => .inr fun topic digits index hs hindex => ?_
      have hc := h (.journal (String.ofList topic) index) (by
        rw [splitQuote?_eq_some_iff.2 hs]
        show (readIndex? digits).map _ = _
        rw [readIndex?_eq_some_iff.2 hindex]
        rfl)
      obtain ⟨digits', _, hd, _⟩ := hc.1 hword
      exact hnone digits' hd
    · rintro (⟨digits, hd⟩ | h) c hc
      · exact absurd hd (hnone digits)
      · obtain ⟨p, hp, hc⟩ := Option.bind_eq_some_iff.1 hc
        obtain ⟨index, hindex, _⟩ := Option.map_eq_some_iff.1 hc
        exact absurd (readIndex?_eq_some_iff.1 hindex) (h p.1 p.2 index (splitQuote?_eq_some_iff.1 hp))

end Lines

/-! ### Levelled lists -/

theorem ends_dropWhile (cs : List Char) : Ends (cs.dropWhile isBare) := by
  intro c hc
  have := List.head?_dropWhile_not isBare cs
  rw [Option.mem_def.1 hc] at this
  simpa [isBare] using this

/-- **An entry is read wherever anything stands behind separators.** -/
theorem isSome_entryBehind?_iff {cs : List Char} :
    (entryBehind? cs).isSome = true ↔ ∃ gap rest, Gap gap ∧ BeginsBare rest ∧ rest ≠ [] ∧ cs = gap ++ rest := by
  constructor
  · intro h
    obtain ⟨c, hc⟩ := Option.isSome_iff_exists.1 h
    obtain ⟨rest, hrest, hfind⟩ := Option.bind_eq_some_iff.1 hc
    obtain ⟨gap, hgap, hbare, heq⟩ := separated?_eq_some_iff.1 hrest
    refine ⟨gap, rest, hgap, hbare, ?_, heq⟩
    rintro rfl
    cases hfind
  · rintro ⟨gap, rest, hgap, hbare, hne, rfl⟩
    rw [entryBehind?, separated?_gap hgap hbare, Option.bind_some, Option.isSome_map, List.find?_isSome]
    cases rest with
    | nil => exact absurd rfl hne
    | cons c rest =>
      have hc : isBare c = true := by rw [isBare, hbare c rfl]; rfl
      refine ⟨((c :: rest).takeWhile isBare, (c :: rest).dropWhile isBare), List.mem_append_right _ ?_,
        (ends_dropWhile (c :: rest)).ended⟩
      rw [bareWord?, List.takeWhile_cons_of_pos hc]
      exact List.mem_singleton.2 rfl

/-- Without quotes, what is read is what is supplied. -/
theorem isSome_entryBehind?_iff_supplies {cs : List Char} (hquote : '"' ∉ cs) :
    (entryBehind? cs).isSome = true ↔ ∃ entry, SuppliesEntry entry cs := by
  rw [isSome_entryBehind?_iff]
  constructor
  · rintro ⟨gap, rest, hgap, hbare, hne, rfl⟩
    refine ⟨rest.takeWhile isBare, gap, rest.takeWhile isBare, rest.dropWhile isBare, hgap, .bare ?_ ?_ ?_,
      ends_dropWhile rest, ?_⟩
    · cases rest with
      | nil => exact absurd rfl hne
      | cons c rest =>
        rw [List.takeWhile_cons_of_pos (by rw [isBare, hbare c rfl]; rfl)]
        simp
    · exact fun h => hquote (List.mem_append_right _ ((List.takeWhile_sublist _).subset h))
    · exact bare_of_all List.all_takeWhile
    · rw [List.takeWhile_append_dropWhile]
  · rintro ⟨entry, gap, arg, tail, hgap, harg, _, rfl⟩
    refine ⟨gap, arg ++ tail, hgap, harg.beginsBare tail, ?_, rfl⟩
    simp [harg.ne_nil]

theorem entryBehind?_supplied {entry cs : List Char} (h : SuppliesEntry entry cs) :
    entryBehind? cs = some (.use (String.ofList entry)) := by
  obtain ⟨gap, arg, tail, hgap, harg, htail, rfl⟩ := h
  exact entryBehind?_written hgap harg htail

theorem isSome_entryBehind?_of_mem {s c : Char} {cs : List Char} (hs : isSeparator s = true) (hc : c ∈ cs)
    (hbare : isSeparator c = false) : (entryBehind? (s :: cs)).isSome = true := by
  have hrest : separated? (s :: cs) = some (skipSeparators cs) := if_pos hs
  obtain ⟨gap, hgap, hbegins, heq⟩ := separated?_eq_some_iff.1 hrest
  refine isSome_entryBehind?_iff.2 ⟨gap, skipSeparators cs, hgap, hbegins, fun hnil => ?_, heq⟩
  have := List.dropWhile_eq_nil_iff.1 hnil c hc
  rw [hbare] at this
  cases this

/-- Read as a word, a quoted text goes on to the first separator, inside the quotes or behind them. -/
theorem isSome_entryBehind?_dropWhile_iff {q r : List Char} (hr : '"' ∉ r) :
    (entryBehind? (('"' :: (q ++ '"' :: r)).dropWhile isBare)).isSome = true ↔
      (∃ c ∈ q, isSeparator c = true) ∨ ∃ entry, SuppliesEntry entry (r.dropWhile isBare) := by
  rw [List.dropWhile_cons_of_pos (by decide)]
  by_cases hq : ∃ c ∈ q, isSeparator c = true
  · refine iff_of_true ?_ (.inl hq)
    have hends := ends_dropWhile q
    rw [List.dropWhile_append]
    cases hrest : q.dropWhile isBare with
    | nil =>
      obtain ⟨c, hc, hsep⟩ := hq
      have := List.dropWhile_eq_nil_iff.1 hrest c hc
      rw [isBare, hsep] at this
      cases this
    | cons s rest =>
      rw [hrest] at hends
      exact isSome_entryBehind?_of_mem (hends s rfl) (List.mem_append_right rest List.mem_cons_self) (by decide)
  · have hall : ∀ c ∈ q ++ ['"'], isBare c = true := fun c hc => by
      rcases List.mem_append.1 hc with hc | hc
      · rw [isBare, Bool.not_eq_true']
        exact Bool.eq_false_iff.2 fun hsep => hq ⟨c, hc, hsep⟩
      · rw [List.mem_singleton.1 hc]
        decide
    have hdrop : (q ++ ['"'] ++ r).dropWhile isBare = r.dropWhile isBare := List.dropWhile_append_of_pos hall
    rw [List.append_assoc, List.singleton_append] at hdrop
    rw [hdrop, isSome_entryBehind?_iff_supplies fun h => hr ((List.dropWhile_sublist _).subset h)]
    exact (or_iff_right hq).symm

section Lists

variable {word gap q r : List Char} (hne : q ≠ []) (hq : '"' ∉ q)

include hne hq

theorem command?_quotedList (hgap : Gap gap) (hword : word ∈ levelledVerbs)
    (harrow : ¬ HasArrow (quotedLine word gap q r)) :
    command? (String.ofList (quotedLine word gap q r)) =
      (entryBehind? r).or (entryBehind? (('"' :: (q ++ '"' :: r)).dropWhile isBare)) := by
  rw [← levelledWords_eq] at hword
  have hlaid := laid_quotedLine (q := q) (r := r) (levelledWords_subset hword) hgap
  have hbare : bareWord? ('"' :: (q ++ '"' :: r)) =
      some (('"' :: (q ++ '"' :: r)).takeWhile isBare, ('"' :: (q ++ '"' :: r)).dropWhile isBare) := by
    rw [bareWord?, List.takeWhile_cons_of_pos (by decide)]
  have hreadings : readings ('"' :: (q ++ '"' :: r)) =
      [(q, r), (('"' :: (q ++ '"' :: r)).takeWhile isBare, ('"' :: (q ++ '"' :: r)).dropWhile isBare)] := by
    rw [readings, closedQuote?_quoted hne hq, hbare]
    rfl
  rw [(command?_of_laid harrow hlaid).2.2.2 hword, addition?_eq, hlaid.arguments? levelledWords_subset, if_pos hword,
    Option.bind_some, hreadings, List.findSome?_cons, List.findSome?_singleton]
  cases entryBehind? r <;> rfl

/-- **When the quotes of a levelled list hold**: the rest supplies an entry; or no separator stands inside the quotes,
and the rest of the word behind them supplies no entry either. -/
theorem quotesHold_levelled_iff (hr : '"' ∉ r) (hgap : Gap gap) (hword : word ∈ levelledVerbs)
    (harrow : ¬ HasArrow (quotedLine word gap q r)) :
    QuotesHold word q r (command? (String.ofList (quotedLine word gap q r))) ↔
      (∃ entry, SuppliesEntry entry r) ∨
        (∀ c ∈ q, isSeparator c = false) ∧ ∀ entry, ¬ SuppliesEntry entry (r.dropWhile isBare) := by
  rw [command?_quotedList hne hq hgap hword harrow]
  by_cases hsupplies : ∃ entry, SuppliesEntry entry r
  · have hnot : word ∉ journalVerbs := fun hj => (journal_only word (journalWords_eq ▸ hj)).2.2 hword
    refine iff_of_true (fun c hc => ⟨fun hj => absurd hj hnot, fun _ => ?_⟩) (.inl hsupplies)
    obtain ⟨entry, hentry⟩ := hsupplies
    rw [entryBehind?_supplied hentry] at hc
    exact ⟨entry, hentry, (Option.some.inj hc).symm⟩
  · have hnone : entryBehind? r = none := by
      rw [← Option.not_isSome_iff_eq_none, isSome_entryBehind?_iff_supplies hr]
      exact hsupplies
    rw [hnone, Option.none_or, or_iff_right hsupplies]
    have hread := isSome_entryBehind?_dropWhile_iff (q := q) hr
    cases hentry : entryBehind? (('"' :: (q ++ '"' :: r)).dropWhile isBare) with
    | none =>
      rw [hentry] at hread
      have hneither := not_or.1 (hread.not.1 (by simp))
      refine iff_of_true (fun c hc => by cases hc) ⟨fun c hc => ?_, fun entry he => hneither.2 ⟨entry, he⟩⟩
      exact Bool.eq_false_iff.2 fun hsep => hneither.1 ⟨c, hc, hsep⟩
    | some c =>
      rw [hentry] at hread
      refine iff_of_false (fun h => ?_) fun h => ?_
      · obtain ⟨entry, he, _⟩ := (h c rfl).2 hword
        exact hsupplies ⟨entry, he⟩
      · rcases hread.1 rfl with ⟨c, hc, hsep⟩ | ⟨entry, he⟩
        · rw [h.1 c hc] at hsep
          cases hsep
        · exact h.2 entry he

end Lists

/-- **When quoted arguments are kept whole.**  On a line with a quoted topic or list and no further quotes, the quotes
hold exactly if the rest of the line supplies the second argument, or if nothing can be split off: for a journal, where
the topic can be split last the digits write no index; for a levelled list, no separator stands inside the quotes, and
what is written on to them supplies no entry. -/
theorem quotes_hold_iff {word gap q r : List Char} (hgap : Gap gap) (hne : q ≠ []) (hq : '"' ∉ q) (hr : '"' ∉ r)
    (harrow : ¬ HasArrow (quotedLine word gap q r)) :
    (word ∈ journalVerbs →
      (QuotesHold word q r (command? (String.ofList (quotedLine word gap q r))) ↔
        (∃ digits, SuppliesIndex digits r) ∨
          ∀ topic digits index, SplitsLast topic digits q → ¬ WritesIndex digits index)) ∧
    (word ∈ levelledVerbs →
      (QuotesHold word q r (command? (String.ofList (quotedLine word gap q r))) ↔
        (∃ entry, SuppliesEntry entry r) ∨
          (∀ c ∈ q, isSeparator c = false) ∧ ∀ entry, ¬ SuppliesEntry entry (r.dropWhile isBare))) :=
  ⟨fun hword => quotesHold_journal_iff hne hq hgap hword harrow,
    fun hword => quotesHold_levelled_iff hne hq hr hgap hword harrow⟩

/-- A topic that holds a separator and a digit, with its index behind it. -/
theorem quotes_hold_before_index :
    QuotesHold "journal".toList "a 5".toList ", 10".toList (command? "journal \"a 5\", 10") ∧
    command? "journal \"a 5\", 10" = some (.journal "a 5" 10) := by
  have hgap : Gap [' '] := ⟨by decide, List.all_eq_true.1 (by decide)⟩
  have hcomma : Gap [',', ' '] := ⟨by decide, List.all_eq_true.1 (by decide)⟩
  have hindex : SuppliesIndex "10".toList ", 10".toList :=
    ⟨[',', ' '], [], hcomma, by decide, List.all_eq_true.1 (by decide), by rintro _ ⟨⟩, rfl⟩
  have harrow : ¬ HasArrow (quotedLine "journal".toList [' '] "a 5".toList ", 10".toList) := by decide +kernel
  have hholds := (quotes_hold_iff hgap (by decide) (by decide) (by decide) harrow).1 (by decide)
  exact ⟨hholds.2 (.inl ⟨_, hindex⟩), by decide +kernel⟩

/-- **Quotes do not always hold**: without a second argument, a topic and a list are split inside their quotes. -/
theorem quotes_are_split :
    command? "journal \"a 5\"" = some (.journal "a" 5) ∧
    ¬ QuotesHold "journal".toList "a 5".toList [] (command? "journal \"a 5\"") ∧
    command? "addtolevitem \"list 5\"" = some (.use "5") ∧
    ¬ QuotesHold "addtolevitem".toList "list 5".toList [] (command? "addtolevitem \"list 5\"") := by
  have hjournal : command? "journal \"a 5\"" = some (.journal "a" 5) := by decide +kernel
  have hlist : command? "addtolevitem \"list 5\"" = some (.use "5") := by decide +kernel
  refine ⟨hjournal, fun h => ?_, hlist, fun h => ?_⟩
  · obtain ⟨digits, _, ⟨gap, tail, hgap, _, _, _, heq⟩, _⟩ := (h _ hjournal).1 (by decide)
    exact hgap.1 (List.append_eq_nil_iff.1 heq.symm).1
  · obtain ⟨entry, ⟨gap, arg, tail, hgap, _, _, heq⟩, _⟩ := (h _ hlist).2 (by decide)
    exact hgap.1 (List.append_eq_nil_iff.1 heq.symm).1

end Script
end WorldAudit
