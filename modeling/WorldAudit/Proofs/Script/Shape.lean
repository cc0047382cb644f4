import WorldAudit.Proofs.Script.Caller
import WorldAudit.Proofs.Text.Lower
/-!
# Shape — how commands are written

The commands of a line as their authors write them: a word, separators, arguments in quotes or bare, and what may stand
behind (`Shape`).  Every command so written is read back (`written_commands_are_read`), since its word alone decides
which shape the line can have.  The words are written out here as authors know them, apart from those that a reader
looks for.
-/
namespace WorldAudit
namespace Script

/-! ## Verbs and indices -/

def startVerbs : List (List Char) := ["startscript".toList]

def placementVerbs : List (List Char) :=
  ["placeatme".toList, "addsoulgem".toList, "additem".toList, "equip".toList, "drop".toList, "placeatpc".toList,
    "placeitemcell".toList, "placeitem".toList]

def journalVerbs : List (List Char) := ["journal".toList, "setjournalindex".toList]

def levelledVerbs : List (List Char) := ["addtolevcreature".toList, "addtolevitem".toList]

/-- Indices are signed numbers of 32 bits. -/
def greatestIndex : Nat := 2147483647

/-! These are the words that are looked for, and the greatest index that is read. -/

theorem startWords_eq : startWords = startVerbs := rfl

theorem placementWords_eq : placementWords = placementVerbs := rfl

theorem journalWords_eq : journalWords = journalVerbs := rfl

theorem levelledWords_eq : levelledWords = levelledVerbs := rfl

theorem maxIndex_eq : maxIndex = greatestIndex := rfl

/-! ## Written forms -/

/-- An id as an argument: in quotes, or bare. -/
inductive Argument : List Char → List Char → Prop
  | quoted {id : List Char} (hne : id ≠ []) (hquote : '"' ∉ id) : Argument id ('"' :: (id ++ ['"']))
  | bare {id : List Char} (hne : id ≠ []) (hquote : '"' ∉ id) (hbare : ∀ c ∈ id, isSeparator c = false) : Argument id id

/-- The number that decimal digits write. -/
def numberOf (digits : List Char) : Nat := Nat.ofDigitChars 10 digits 0

/-- A journal topic and its index as arguments, the index with the digits given. -/
inductive JournalArguments : List Char → List Char → List Char → Prop
  | mk {topic arg gap digits : List Char} (harg : Argument topic arg) (hgap : Gap gap) (hne : digits ≠ [])
      (hdigits : ∀ d ∈ digits, d.isDigit = true) : JournalArguments topic digits (arg ++ (gap ++ digits))

/-- **A command as it is written**: a word, the arguments with the separators before them, and the rest of the line. -/
inductive Shape : List Char → List Char → List Char → Command → Prop
  | start {word gap arg script tail : List Char} (hword : word ∈ startVerbs) (hgap : Gap gap)
      (harg : Argument script arg) (htail : ∀ c ∈ tail, isSeparator c = true) :
      Shape word (gap ++ arg) tail (.start (String.ofList script))
  | useQuoted {word gap object : List Char} (tail : List Char) (hword : word ∈ placementVerbs) (hgap : Gap gap)
      (hne : object ≠ []) (hquote : '"' ∉ object) :
      Shape word (gap ++ '"' :: (object ++ ['"'])) tail (.use (String.ofList object))
  | useBare {word gap object tail : List Char} (hword : word ∈ placementVerbs) (hgap : Gap gap) (hne : object ≠ [])
      (hquote : '"' ∉ object) (hbare : ∀ c ∈ object, isSeparator c = false) (htail : Ends tail) :
      Shape word (gap ++ object) tail (.use (String.ofList object))
  | journal {word gap topic digits args tail : List Char} (hword : word ∈ journalVerbs) (hgap : Gap gap)
      (hargs : JournalArguments topic digits args) (hnumber : numberOf digits ≤ greatestIndex)
      (htail : ∀ c ∈ tail.head?, Text.isDigit c = false) :
      Shape word (gap ++ args) tail (.journal (String.ofList topic) (numberOf digits))
  | addition {word gap list listArg gap' entry arg tail : List Char} (hword : word ∈ levelledVerbs) (hgap : Gap gap)
      (hlist : Argument list listArg) (hgap' : Gap gap') (harg : Argument entry arg) (htail : Ends tail) :
      Shape word (gap ++ (listArg ++ (gap' ++ arg))) tail (.use (String.ofList entry))

/-! ## Reading arguments -/

section Arguments

variable {id arg : List Char}

theorem Argument.ne_nil (h : Argument id arg) : arg ≠ [] := by
  cases h with
  | quoted => simp
  | bare hne => exact hne

theorem Argument.beginsBare (h : Argument id arg) (rest : List Char) : BeginsBare (arg ++ rest) := by
  refine BeginsBare.append ?_ h.ne_nil rest
  cases h with
  | quoted => rintro _ ⟨⟩; decide
  | bare _ _ hbare => exact fun c hc => hbare c (List.mem_of_mem_head? hc)

theorem notQuote_of_not_mem {cs : List Char} (h : '"' ∉ cs) : ∀ c ∈ cs, notQuote c = true :=
  fun _ hc => bne_iff_ne.2 fun e => h (e ▸ hc)

theorem unquoted_of_not_mem (h : '"' ∉ id) : unquoted id = String.ofList id :=
  congrArg String.ofList (List.filter_eq_self.2 (notQuote_of_not_mem h))

theorem closedQuote?_quoted (hne : id ≠ []) (hquote : '"' ∉ id) (rest : List Char) :
    closedQuote? ('"' :: (id ++ '"' :: rest)) = some (id, rest) := by
  have hstop : ∀ c ∈ ('"' :: rest).head?, notQuote c = false := by rintro _ ⟨⟩; decide
  rw [closedQuote?, takeWhile_run (notQuote_of_not_mem hquote) hstop, dropWhile_run (notQuote_of_not_mem hquote) hstop]
  cases id with
  | nil => exact absurd rfl hne
  | cons c id => rfl

theorem closedQuote?_of_head {cs : List Char} (h : cs.head? ≠ some '"') : closedQuote? cs = none := by
  cases cs with
  | nil => rfl
  | cons c cs =>
    rw [closedQuote?]
    rintro cs ⟨⟩
    exact h rfl

/-- **The first reading of an argument is its id.** -/
theorem Argument.readings_eq (h : Argument id arg) {rest : List Char} (hrest : Ends rest) :
    ∃ others, readings (arg ++ rest) = (id, rest) :: others := by
  cases h with
  | quoted hne hquote =>
    rw [List.cons_append, List.append_assoc, readings, List.singleton_append, closedQuote?_quoted hne hquote]
    exact ⟨_, rfl⟩
  | bare hne hquote hbare =>
    have hrun : ∀ c ∈ id, isBare c = true := fun c hc => by rw [isBare, hbare c hc]; rfl
    have hstop : ∀ c ∈ rest.head?, isBare c = false := fun c hc => by rw [isBare, hrest c hc]; rfl
    have hhead : (id ++ rest).head? ≠ some '"' := by
      cases id with
      | nil => exact absurd rfl hne
      | cons c id => rintro ⟨⟩; exact hquote List.mem_cons_self
    have hword : bareWord? (id ++ rest) = some (id, rest) := by
      rw [bareWord?, takeWhile_run hrun hstop, dropWhile_run hrun hstop]
      cases id with
      | nil => exact absurd rfl hne
      | cons c id => rfl
    rw [readings, closedQuote?_of_head hhead, hword]
    exact ⟨[], rfl⟩

theorem Argument.quote_notMem (h : Argument id arg) : '"' ∉ id := by
  cases h with
  | quoted _ hquote => exact hquote
  | bare _ hquote => exact hquote

end Arguments

/-! ## Reading shapes -/

section Shapes

variable {word cs : List Char}

theorem start?_written {script arg tail : List Char} (hword : word ∈ startWords) (harg : Argument script arg)
    (htail : ∀ c ∈ tail, isSeparator c = true) (h : Laid word (arg ++ tail) cs) :
    start? cs = some (.start (String.ofList script)) := by
  obtain ⟨others, hreadings⟩ := harg.readings_eq (ends_of_all htail)
  have hfind : (readings (arg ++ tail)).find? (fun r => r.2.all isSeparator) = some (script, tail) := by
    rw [hreadings]
    exact List.find?_cons_of_pos (List.all_eq_true.2 htail)
  rw [start?, h.arguments? startWords_subset, if_pos hword]
  show ((readings (arg ++ tail)).find? fun r => r.2.all isSeparator).bind _ = _
  rw [hfind, ← unquoted_of_not_mem harg.quote_notMem]
  rfl

theorem placement?_quoted {object rest : List Char} (hword : word ∈ placementWords) (hne : object ≠ [])
    (hquote : '"' ∉ object) (hrest : ∀ c ∈ rest.head?, notQuote c = false)
    (h : Laid word ('"' :: (object ++ rest)) cs) : placement? cs = some (.use (String.ofList object)) := by
  have hrun := takeWhile_run (notQuote_of_not_mem hquote) hrest
  rw [placement?, h.arguments? placementWords_subset, if_pos hword]
  cases object with
  | nil => exact absurd rfl hne
  | cons c object => simp only [Option.bind_eq_bind, Option.bind_some, hrun]

theorem placement?_bare {object tail : List Char} (hword : word ∈ placementWords) (hne : object ≠ [])
    (hquote : '"' ∉ object) (hbare : ∀ c ∈ object, isSeparator c = false) (htail : Ends tail)
    (h : Laid word (object ++ tail) cs) : placement? cs = some (.use (String.ofList object)) := by
  have hplain : ∀ c ∈ object, isPlain c = true := fun c hc => by
    rw [isPlain, hbare c hc, notQuote_of_not_mem hquote c hc]; rfl
  have hstop : ∀ c ∈ tail.head?, isPlain c = false := fun c hc => by rw [isPlain, htail c hc]; rfl
  rw [placement?, h.arguments? placementWords_subset, if_pos hword]
  cases object with
  | nil => exact absurd rfl hne
  | cons c object =>
    have hc : c ≠ '"' := fun e => hquote (e ▸ List.mem_cons_self)
    simp only [List.cons_append, Option.bind_eq_bind, Option.bind_some]
    split
    · rename_i heq
      exact absurd (List.cons.inj heq).1 hc
    · rw [← List.cons_append, takeWhile_run hplain hstop, dropWhile_run hplain hstop]
      cases tail with
      | nil => rfl
      | cons s tail => exact if_pos (htail s rfl)

theorem isSeparator_of_digit {c : Char} (h : Text.isDigit c = true) : isSeparator c = false := by
  have hblank : Text.isBlank c = false := Text.inRuns_of_apart (by decide +kernel) (Text.exists_of_inRuns h)
  have hcomma : c ≠ ',' := by rintro rfl; cases h
  rw [isSeparator, hblank, Bool.or_false]
  simpa using hcomma

theorem indexDigits?_gap {gap digits tail : List Char} (hgap : Gap gap) (hne : digits ≠ [])
    (hdigits : ∀ d ∈ digits, Text.isDigit d = true) (htail : ∀ c ∈ tail.head?, Text.isDigit c = false) :
    indexDigits? (gap ++ (digits ++ tail)) = some digits := by
  have hbare : BeginsBare (digits ++ tail) :=
    BeginsBare.append (fun d hd => isSeparator_of_digit (hdigits d (List.mem_of_mem_head? hd))) hne tail
  have hrun := takeWhile_run hdigits htail
  rw [indexDigits?, separated?_gap hgap hbare]
  cases digits with
  | nil => exact absurd rfl hne
  | cons d digits => simp only [Option.bind_eq_bind, Option.bind_some, hrun]

/-- Behind a topic in quotes an index is looked for first, and then inside the quotes. -/
theorem topicAndIndex?_quoted {topic : List Char} (hne : topic ≠ []) (hquote : '"' ∉ topic) (rest : List Char) :
    topicAndIndex? ('"' :: (topic ++ '"' :: rest)) =
      ((indexDigits? rest).map fun digits => (topic, digits)).or (splitQuote? topic) := by
  have hstop : ∀ c ∈ ('"' :: rest).head?, notQuote c = false := by rintro _ ⟨⟩; decide
  rw [topicAndIndex?]
  simp only [takeWhile_run (notQuote_of_not_mem hquote) hstop, dropWhile_run (notQuote_of_not_mem hquote) hstop]
  cases topic with
  | nil => exact absurd rfl hne
  | cons c topic => simp

theorem topicAndIndex?_written {topic digits args tail : List Char} (h : JournalArguments topic digits args)
    (htail : ∀ c ∈ tail.head?, Text.isDigit c = false) : topicAndIndex? (args ++ tail) = some (topic, digits) := by
  obtain ⟨harg, hgap, hne, hdigits⟩ := h
  rename_i arg gap
  have hindex := indexDigits?_gap hgap hne (fun d hd => Text.isDigit_of_ascii (hdigits d hd)) htail
  cases harg with
  | quoted hid hquote =>
    have hargs : '"' :: (topic ++ ['"']) ++ (gap ++ digits) ++ tail =
        '"' :: (topic ++ '"' :: (gap ++ (digits ++ tail))) := by simp
    rw [hargs, topicAndIndex?_quoted hid hquote, hindex]
    rfl
  | bare hid hquote hbare =>
    have hplain : ∀ c ∈ topic, isPlain c = true := fun c hc => by
      rw [isPlain, hbare c hc, notQuote_of_not_mem hquote c hc]; rfl
    have hstop : ∀ c ∈ (gap ++ (digits ++ tail)).head?, isPlain c = false := fun c hc => by
      rw [isPlain, hgap.ends _ c hc]; rfl
    cases topic with
    | nil => exact absurd rfl hid
    | cons c topic =>
      have hc : c ≠ '"' := fun e => hquote (e ▸ List.mem_cons_self)
      have hargs : c :: topic ++ (gap ++ digits) ++ tail = c :: topic ++ (gap ++ (digits ++ tail)) := by simp
      rw [hargs, topicAndIndex?]
      · rw [takeWhile_run hplain hstop, dropWhile_run hplain hstop]
        simp [hindex]
      · rintro rest heq
        exact hc (List.cons.inj heq).1

theorem JournalArguments.isDigit {topic digits args : List Char} (h : JournalArguments topic digits args) :
    ∀ d ∈ digits, d.isDigit = true := by
  obtain ⟨_, _, _, hdigits⟩ := h
  exact hdigits

theorem JournalArguments.beginsBare {topic digits args : List Char} (h : JournalArguments topic digits args)
    (rest : List Char) : BeginsBare (args ++ rest) := by
  obtain ⟨harg, _, _, _⟩ := h
  rw [List.append_assoc]
  exact harg.beginsBare _

theorem readIndex?_written {digits : List Char} (hdigits : ∀ d ∈ digits, d.isDigit = true) :
    readIndex? digits = if numberOf digits ≤ greatestIndex then some (numberOf digits : Int) else none := by
  rw [readIndex?, if_pos (List.all_eq_true.2 hdigits), numberOf, Nat.ofDigitChars_eq_foldl, maxIndex_eq]

theorem journal?_written {topic digits args tail : List Char} (hword : word ∈ journalWords)
    (hargs : JournalArguments topic digits args) (htail : ∀ c ∈ tail.head?, Text.isDigit c = false)
    (h : Laid word (args ++ tail) cs) :
    journal? cs = some (if numberOf digits ≤ greatestIndex then some (.journal (String.ofList topic) (numberOf digits))
      else none) := by
  rw [journal?, h.arguments? journalWords_subset, if_pos hword]
  show (topicAndIndex? (args ++ tail)).bind _ = _
  rw [topicAndIndex?_written hargs htail, Option.bind_some]
  dsimp only
  rw [readIndex?_written hargs.isDigit]
  split <;> rfl

theorem Ends.ended {tail : List Char} (h : Ends tail) : (tail.isEmpty || (separated? tail).isSome) = true := by
  cases tail with
  | nil => rfl
  | cons s tail => rw [separated?, if_pos (h s rfl)]; rfl

/-- The entry that is read behind a list. -/
def entryBehind? (cs : List Char) : Option Command :=
  (separated? cs).bind fun entries =>
    ((readings entries).find? fun r => r.2.isEmpty || (separated? r.2).isSome).map fun r => .use (unquoted r.1)

theorem addition?_eq (cs : List Char) :
    addition? cs =
      (arguments? levelledWords cs).bind fun rest => (readings rest).findSome? fun r => entryBehind? r.2 := by
  unfold addition? entryBehind?
  cases arguments? levelledWords cs with
  | none => rfl
  | some rest =>
    refine congrArg (List.findSome? · (readings rest)) (funext fun ⟨_, cs⟩ => ?_)
    show (separated? cs).bind _ = (separated? cs).bind _
    refine congrArg _ (funext fun entries => ?_)
    show ((readings entries).find? _).bind _ = ((readings entries).find? _).map _
    rw [Option.map_eq_bind]
    rfl

theorem entryBehind?_written {gap entry arg tail : List Char} (hgap : Gap gap) (harg : Argument entry arg)
    (htail : Ends tail) : entryBehind? (gap ++ (arg ++ tail)) = some (.use (String.ofList entry)) := by
  obtain ⟨others, hreadings⟩ := harg.readings_eq htail
  have hfind : (readings (arg ++ tail)).find? (fun r => r.2.isEmpty || (separated? r.2).isSome) =
      some (entry, tail) := by
    rw [hreadings]
    exact List.find?_cons_of_pos htail.ended
  rw [entryBehind?, separated?_gap hgap (harg.beginsBare tail), Option.bind_some, hfind, Option.map_some,
    unquoted_of_not_mem harg.quote_notMem]

theorem addition?_written {list listArg gap entry arg tail : List Char} (hword : word ∈ levelledWords)
    (hlist : Argument list listArg) (hgap : Gap gap) (harg : Argument entry arg) (htail : Ends tail)
    (h : Laid word (listArg ++ (gap ++ (arg ++ tail))) cs) : addition? cs = some (.use (String.ofList entry)) := by
  obtain ⟨lists, hlists⟩ := hlist.readings_eq (hgap.ends (arg ++ tail))
  rw [addition?_eq, h.arguments? levelledWords_subset, if_pos hword, Option.bind_some, hlists, List.findSome?_cons,
    entryBehind?_written hgap harg htail]

end Shapes

/-! ## Reading lines -/

theorem command?_of_not_hasArrow {line : List Char} (h : ¬ HasArrow line) :
    command? (String.ofList line) = (start? (skipSeparators line) <|> placement? (skipSeparators line) <|>
      (journal? (skipSeparators line)).getD (addition? (skipSeparators line))) := by
  unfold command?
  rw [String.toList_ofList, starts_of_not_hasArrow h]
  simp only [List.findSome?_singleton]
  cases journal? (skipSeparators line) <;> rfl

/-! A word belongs to one shape. -/

theorem start_only : ∀ word ∈ startWords, word ∉ placementWords ∧ word ∉ journalWords ∧ word ∉ levelledWords := by
  decide

theorem placement_only : ∀ word ∈ placementWords, word ∉ startWords ∧ word ∉ journalWords ∧ word ∉ levelledWords := by
  decide

theorem journal_only : ∀ word ∈ journalWords, word ∉ startWords ∧ word ∉ placementWords ∧ word ∉ levelledWords := by
  decide

theorem levelled_only : ∀ word ∈ levelledWords, word ∉ startWords ∧ word ∉ placementWords ∧ word ∉ journalWords := by
  decide

section Lines

variable {word rest line : List Char} (harrow : ¬ HasArrow line) (h : Laid word rest (skipSeparators line))

include harrow h

/-- **The word of a line decides its shape.** -/
theorem command?_of_laid :
    (word ∈ startWords → command? (String.ofList line) = start? (skipSeparators line)) ∧
    (word ∈ placementWords → command? (String.ofList line) = placement? (skipSeparators line)) ∧
    (word ∈ journalWords → command? (String.ofList line) = (journal? (skipSeparators line)).join) ∧
    (word ∈ levelledWords → command? (String.ofList line) = addition? (skipSeparators line)) := by
  have hstart : word ∉ startWords → start? (skipSeparators line) = none := fun hw =>
    start?_eq_none (by rw [h.arguments? startWords_subset, if_neg hw])
  have hplacement : word ∉ placementWords → placement? (skipSeparators line) = none := fun hw =>
    placement?_eq_none (by rw [h.arguments? placementWords_subset, if_neg hw])
  have hjournal : word ∉ journalWords → journal? (skipSeparators line) = none := fun hw =>
    journal?_eq_none (by rw [h.arguments? journalWords_subset, if_neg hw])
  have hlevelled : word ∉ levelledWords → addition? (skipSeparators line) = none := fun hw =>
    addition?_eq_none (by rw [h.arguments? levelledWords_subset, if_neg hw])
  rw [command?_of_not_hasArrow harrow]
  refine ⟨fun hw => ?_, fun hw => ?_, fun hw => ?_, fun hw => ?_⟩
  · obtain ⟨hp, hj, hl⟩ := start_only word hw
    rw [hplacement hp, hjournal hj, hlevelled hl]
    cases start? (skipSeparators line) <;> rfl
  · obtain ⟨hs, hj, hl⟩ := placement_only word hw
    rw [hstart hs, hjournal hj, hlevelled hl]
    cases placement? (skipSeparators line) <;> rfl
  · obtain ⟨hs, hp, hl⟩ := journal_only word hw
    rw [hstart hs, hplacement hp, hlevelled hl]
    cases journal? (skipSeparators line) <;> rfl
  · obtain ⟨hs, hp, hj⟩ := levelled_only word hw
    rw [hstart hs, hplacement hp, hjournal hj]
    rfl

end Lines

section Written

variable {lead word : List Char} (hlead : ∀ c ∈ lead, isSeparator c = true)

include hlead

theorem laid_lead {gap rest : List Char} (hword : word ∈ words) (hgap : Gap gap) (hrest : BeginsBare rest) :
    Laid word rest (skipSeparators (lead ++ (word ++ (gap ++ rest)))) := by
  rw [skipSeparators_run hlead (beginsBare_word hword (gap ++ rest))]
  exact ⟨hword, hrest, gap, hgap, rfl⟩

/-- The object of a placement in quotes, with what follows the object. -/
theorem command?_quotedObject {gap object rest : List Char} (hword : word ∈ placementWords) (hgap : Gap gap)
    (hne : object ≠ []) (hquote : '"' ∉ object) (hrest : ∀ c ∈ rest.head?, notQuote c = false)
    (harrow : ¬ HasArrow (lead ++ (word ++ (gap ++ '"' :: (object ++ rest))))) :
    command? (String.ofList (lead ++ (word ++ (gap ++ '"' :: (object ++ rest))))) =
      some (.use (String.ofList object)) := by
  have hbare : BeginsBare ('"' :: (object ++ rest)) := by rintro _ ⟨⟩; decide
  have hlaid := laid_lead hlead (placementWords_subset hword) hgap hbare
  rw [(command?_of_laid harrow hlaid).2.1 hword]
  exact placement?_quoted hword hne hquote hrest hlaid

theorem command?_journal {gap topic digits args tail : List Char} (hword : word ∈ journalWords) (hgap : Gap gap)
    (hargs : JournalArguments topic digits args) (htail : ∀ c ∈ tail.head?, Text.isDigit c = false)
    (harrow : ¬ HasArrow (lead ++ (word ++ (gap ++ (args ++ tail))))) :
    command? (String.ofList (lead ++ (word ++ (gap ++ (args ++ tail))))) =
      if numberOf digits ≤ greatestIndex then some (.journal (String.ofList topic) (numberOf digits)) else none := by
  have hlaid := laid_lead hlead (journalWords_subset hword) hgap (hargs.beginsBare tail)
  rw [(command?_of_laid harrow hlaid).2.2.1 hword, journal?_written hword hargs htail hlaid]
  rfl

/-- **A command that is written is read.** -/
theorem command?_of_shape {args tail : List Char} {command : Command} (h : Shape word args tail command)
    (harrow : ¬ HasArrow (lead ++ (word ++ (args ++ tail)))) :
    command? (String.ofList (lead ++ (word ++ (args ++ tail)))) = some command := by
  cases h with
  | start hword hgap harg htail =>
    rw [← startWords_eq] at hword
    rw [List.append_assoc] at harrow ⊢
    have hlaid := laid_lead hlead (startWords_subset hword) hgap (harg.beginsBare tail)
    rw [(command?_of_laid harrow hlaid).1 hword]
    exact start?_written hword harg htail hlaid
  | useQuoted tail hword hgap hne hquote =>
    rw [← placementWords_eq] at hword
    rw [List.append_assoc, List.cons_append, List.append_assoc] at harrow ⊢
    exact command?_quotedObject hlead hword hgap hne hquote (by rintro _ ⟨⟩; decide) harrow
  | useBare hword hgap hne hquote hbare htail =>
    rw [← placementWords_eq] at hword
    rw [List.append_assoc] at harrow ⊢
    have hobject := (Argument.bare hne hquote hbare).beginsBare tail
    have hlaid := laid_lead hlead (placementWords_subset hword) hgap hobject
    rw [(command?_of_laid harrow hlaid).2.1 hword]
    exact placement?_bare hword hne hquote hbare htail hlaid
  | journal hword hgap hargs hnumber htail =>
    rw [← journalWords_eq] at hword
    rw [List.append_assoc] at harrow ⊢
    rw [command?_journal hlead hword hgap hargs htail harrow, if_pos hnumber]
  | addition hword hgap hlist hgap' harg htail =>
    rename_i gap list listArg gap' entry arg
    rw [← levelledWords_eq] at hword
    rw [List.append_assoc, List.append_assoc, List.append_assoc] at harrow ⊢
    have hlaid := laid_lead hlead (levelledWords_subset hword) hgap (hlist.beginsBare (gap' ++ (arg ++ tail)))
    rw [(command?_of_laid harrow hlaid).2.2.2 hword]
    exact addition?_written hword hlist hgap' harg htail hlaid

end Written

/-- **Every command in an admissible form is read back**, also a placement whose quotes stay open to the end of the
line; a journal command whose number no index can hold names nothing. -/
theorem written_commands_are_read {lead word : List Char} (hlead : ∀ c ∈ lead, isSeparator c = true) :
    (∀ args tail command, Shape word args tail command → ¬ HasArrow (lead ++ (word ++ (args ++ tail))) →
      command? (String.ofList (lead ++ (word ++ (args ++ tail)))) = some command) ∧
    (∀ gap object, word ∈ placementVerbs → Gap gap → object ≠ [] → '"' ∉ object →
      ¬ HasArrow (lead ++ (word ++ (gap ++ '"' :: object))) →
      command? (String.ofList (lead ++ (word ++ (gap ++ '"' :: object)))) = some (.use (String.ofList object))) ∧
    (∀ gap topic digits args tail, word ∈ journalVerbs → Gap gap → JournalArguments topic digits args →
      greatestIndex < numberOf digits → (∀ c ∈ tail.head?, Text.isDigit c = false) →
      ¬ HasArrow (lead ++ (word ++ (gap ++ (args ++ tail)))) →
      command? (String.ofList (lead ++ (word ++ (gap ++ (args ++ tail))))) = none) := by
  refine ⟨fun args tail command h harrow => command?_of_shape hlead h harrow, ?_, ?_⟩
  · intro gap object hword hgap hne hquote harrow
    have hend : ∀ c ∈ ([] : List Char).head?, notQuote c = false := by rintro _ ⟨⟩
    rw [← placementWords_eq] at hword
    have hread := command?_quotedObject hlead hword hgap hne hquote hend
    rw [List.append_nil] at hread
    exact hread harrow
  · intro gap topic digits args tail hword hgap hargs hnumber htail harrow
    rw [← journalWords_eq] at hword
    rw [command?_journal hlead hword hgap hargs htail harrow, if_neg (Nat.not_le.2 hnumber)]

/-- A line of each shape, with commas, tabs and a no-break space between its parts; then open quotes, and an index too
great. -/
theorem seven_lines_are_read :
    (∀ c ∈ " ,".toList, isSeparator c = true) ∧
    Shape "startscript".toList "\tmain".toList " , ".toList (.start "main") ∧
    Shape "placeatme".toList ",\"red, rock\"".toList "5 then".toList (.use "red, rock") ∧
    Shape "equip".toList "\u00a0ring".toList ",1".toList (.use "ring") ∧
    Shape "journal".toList " \"a 5\", 0010".toList " then".toList (.journal "a 5" 10) ∧
    Shape "addtolevitem".toList " \"bag 1\",coin".toList "\t5".toList (.use "coin") ∧
    command? " ,startscript\tmain , " = some (.start "main") ∧
    command? " ,placeatme,\"red, rock\"5 then" = some (.use "red, rock") ∧
    command? " ,equip\u00a0ring,1" = some (.use "ring") ∧
    command? " ,journal \"a 5\", 0010 then" = some (.journal "a 5" 10) ∧
    command? " ,addtolevitem \"bag 1\",coin\t5" = some (.use "coin") ∧
    command? " ,additem \"silver cup" = some (.use "silver cup") ∧
    command? " ,setjournalindex q 2147483648" = none := by
  have hlead : ∀ c ∈ " ,".toList, isSeparator c = true := List.all_eq_true.1 (by decide)
  have hspace : Gap [' '] := ⟨by decide, List.all_eq_true.1 (by decide)⟩
  have hcomma : Gap [','] := ⟨by decide, List.all_eq_true.1 (by decide)⟩
  have hboth : Gap [',', ' '] := ⟨by decide, List.all_eq_true.1 (by decide)⟩
  have htab : Gap ['\t'] := ⟨by decide, List.all_eq_true.1 (by decide)⟩
  have hnoBreak : Gap ['\u00a0'] := ⟨by decide, List.all_eq_true.1 (by decide)⟩
  have hquoted : JournalArguments "a 5".toList "0010".toList "\"a 5\", 0010".toList :=
    .mk (.quoted (by decide) (by decide)) hboth (by decide) (List.all_eq_true.1 (by decide))
  have hbare : JournalArguments "q".toList "2147483648".toList "q 2147483648".toList :=
    .mk (.bare (by decide) (by decide) (bare_of_all (by decide))) hspace (by decide) (List.all_eq_true.1 (by decide))
  have hthen : ∀ c ∈ " then".toList.head?, Text.isDigit c = false := by rintro _ ⟨⟩; decide
  have hend : ∀ c ∈ ([] : List Char).head?, Text.isDigit c = false := by rintro _ ⟨⟩
  have hstart : Shape "startscript".toList "\tmain".toList " , ".toList (.start "main") :=
    .start (by decide) htab (.bare (by decide) (by decide) (bare_of_all (by decide))) (List.all_eq_true.1 (by decide))
  have hplace : Shape "placeatme".toList ",\"red, rock\"".toList "5 then".toList (.use "red, rock") :=
    @Shape.useQuoted _ _ "red, rock".toList _ (by decide) hcomma (by decide) (by decide)
  have hequip : Shape "equip".toList "\u00a0ring".toList ",1".toList (.use "ring") :=
    .useBare (by decide) hnoBreak (by decide) (by decide) (bare_of_all (by decide)) (by rintro _ ⟨⟩; decide)
  have hjournal : Shape "journal".toList " \"a 5\", 0010".toList " then".toList (.journal "a 5" 10) :=
    .journal (by decide) hspace hquoted (by decide +kernel) hthen
  have hbag : Argument "bag 1".toList "\"bag 1\"".toList := .quoted (by decide) (by decide)
  have hcoin : Argument "coin".toList "coin".toList := .bare (by decide) (by decide) (bare_of_all (by decide))
  have htail : Ends "\t5".toList := by rintro _ ⟨⟩; decide
  have hlist : Shape "addtolevitem".toList " \"bag 1\",coin".toList "\t5".toList (.use "coin") :=
    .addition (by decide) hspace hbag hcomma hcoin htail
  have hread {word args tail : List Char} {command : Command} (h : Shape word args tail command) :=
    (written_commands_are_read hlead).1 args tail command h
  have hopen := (written_commands_are_read hlead).2.1 [' '] "silver cup".toList
    (by decide : "additem".toList ∈ placementVerbs) hspace (by decide) (by decide) (by decide +kernel)
  have hgreat := (written_commands_are_read hlead).2.2 [' '] "q".toList _ _ []
    (by decide : "setjournalindex".toList ∈ journalVerbs) hspace hbare (by decide +kernel) hend (by decide +kernel)
  refine ⟨hlead, hstart, hplace, hequip, hjournal, hlist, ?_, ?_, ?_, ?_, ?_, ?_, ?_⟩
  · exact (congrArg command? (by decide +kernel)).trans (hread hstart (by decide +kernel))
  · exact (congrArg command? (by decide +kernel)).trans (hread hplace (by decide +kernel))
  · exact (congrArg command? (by decide +kernel)).trans (hread hequip (by decide +kernel))
  · exact (congrArg command? (by decide +kernel)).trans (hread hjournal (by decide +kernel))
  · exact (congrArg command? (by decide +kernel)).trans (hread hlist (by decide +kernel))
  · exact (congrArg command? (by decide +kernel)).trans hopen
  · exact (congrArg command? (by decide +kernel)).trans hgreat

end Script
end WorldAudit
