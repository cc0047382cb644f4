import WorldAudit.Audit.Stream
import WorldAudit.Proofs.Reachability.Ledger
import WorldAudit.Proofs.Script.Line
import WorldAudit.Proofs.Script.Shape
import WorldAudit.Proofs.Text.Lower
/-!
# Key — ids in scripts and the keys of records

A line is lowered as a whole before its command is read, and the id of a record is lowered by itself.  Both give the
same key (`keys_agree`): quotes, separators and digits are inert, so that the lower case of a written command is the
command written with the lower case of its id (`Shape.lower`).
-/
namespace WorldAudit
namespace Script

open Text (lowerChars lowered_lowerChars lower_ofList Lowered Caseless Inert)

/-- The command on the id in lower case. -/
def Command.lower : Command → Command
  | .start script => .start (Text.lower script)
  | .use object => .use (Text.lower object)
  | .journal topic index => .journal (Text.lower topic) index

def Command.id : Command → String
  | .start script => script
  | .use object => object
  | .journal topic _ => topic

@[simp] theorem Command.id_lower (command : Command) : command.lower.id = Text.lower command.id := by
  cases command <;> rfl

/-! ## Lower case of texts in a script -/

theorem caseless_isSeparator : Caseless isSeparator :=
  (Text.caseless_single (by decide +kernel)).or Text.caseless_isBlank

theorem inert_of_isSeparator {c : Char} (h : isSeparator c = true) : Inert c := by
  rcases Bool.or_eq_true_iff.1 h with hcomma | hblank
  · exact Text.inert_of_mem (.inr (beq_iff_eq.1 hcomma))
  · exact Text.inert_of_isBlank hblank

theorem inert_quote : Inert '"' := Text.inert_of_mem (.inl rfl)

section Classes

variable {cs : List Char}

theorem quote_notMem_lower (h : '"' ∉ cs) : '"' ∉ lowerChars cs := by
  intro hmem
  have hall : ∀ c ∈ cs, (c == '"') = false := fun c hc => beq_eq_false_iff_ne.2 fun e => h (e ▸ hc)
  have := (lowered_lowerChars cs).all_not (Text.caseless_single (by decide +kernel)) hall _ hmem
  simp at this

theorem Gap.lower_append {gap : List Char} (h : Gap gap) (rest : List Char) :
    lowerChars (gap ++ rest) = gap ++ lowerChars rest :=
  Text.lowerChars_inert_append (fun c hc => inert_of_isSeparator (h.2 c hc)) rest

theorem Ends.lower_append {tail : List Char} (h : Ends tail) (cs : List Char) :
    lowerChars (cs ++ tail) = lowerChars cs ++ lowerChars tail :=
  Text.lowerChars_append fun c hc => inert_of_isSeparator (h c hc)

theorem Ends.lower {tail : List Char} (h : Ends tail) : Ends (lowerChars tail) :=
  Text.head?_lowerChars caseless_isSeparator h

/-- A text in quotes is lowered apart from what follows it. -/
theorem lower_quoted (id rest : List Char) :
    lowerChars ('"' :: (id ++ '"' :: rest)) = '"' :: (lowerChars id ++ '"' :: lowerChars rest) := by
  rw [lowerChars, Text.lowerFrom_inert inert_quote, Text.lowerFrom_cut inert_quote]
  rfl

theorem hasArrow_cons_iff {c : Char} {cs : List Char} :
    HasArrow (c :: cs) ↔ (c = '-' ∧ cs.head? = some '>') ∨ HasArrow cs := by
  constructor
  · intro h
    rcases List.infix_cons_iff.1 h with hprefix | hinfix
    · obtain ⟨rest, heq⟩ := hprefix
      obtain ⟨rfl, rfl⟩ := List.cons.inj heq
      exact .inl ⟨rfl, rfl⟩
    · exact .inr hinfix
  · rintro (⟨rfl, hhead⟩ | h)
    · obtain ⟨rest, rfl⟩ := List.head?_eq_some_iff.1 hhead
      exact ⟨[], rest, rfl⟩
    · exact hasArrow_cons h

theorem hasArrow_of_append {piece : List Char} (hpiece : '-' ∉ piece) (h : HasArrow (piece ++ cs)) : HasArrow cs := by
  induction piece with
  | nil => exact h
  | cons d piece ih =>
    rw [List.mem_cons, not_or] at hpiece
    rcases hasArrow_cons_iff.1 h with ⟨hd, _⟩ | h
    · exact absurd hd.symm hpiece.1
    · exact ih hpiece.2 h

/-- **No arrow appears by lower case.** -/
theorem hasArrow_of_lowered {cs' : List Char} (h : Lowered cs cs') (harrow : HasArrow cs') : HasArrow cs := by
  have hdash : Caseless (· == '-') := Text.caseless_single (by decide +kernel)
  have hgreater : Caseless (· == '>') := Text.caseless_single (by decide +kernel)
  induction h with
  | nil => exact harrow
  | @cons c cs piece cs' hpiece h ih =>
    rcases hpiece with rfl | ⟨_, _, hcase⟩
    · rcases hasArrow_cons_iff.1 harrow with ⟨hc, hhead⟩ | harrow
      · have hsame := h.head? hgreater
        rw [show cs'.head? = some '>' from hhead] at hsame
        obtain ⟨d, hd, hdc⟩ := Option.map_eq_some_iff.1 hsame.symm
        exact hasArrow_cons_iff.2 (.inl ⟨hc, by rw [hd, beq_iff_eq.1 hdc]⟩)
      · exact hasArrow_cons (ih harrow)
    · -- what replaces a character with case holds no part of an arrow
      have hnone : '-' ∉ piece := fun hmem => by cases hdash '-' (hcase '-' hmem)
      exact hasArrow_cons (ih (hasArrow_of_append hnone harrow))

end Classes

/-! ## Lower case of commands -/

theorem Argument.lower {id arg : List Char} (h : Argument id arg) : Argument (lowerChars id) (lowerChars arg) := by
  cases h with
  | quoted hne hquote =>
    rw [lower_quoted]
    exact .quoted ((lowered_lowerChars id).ne_nil hne) (quote_notMem_lower hquote)
  | bare hne hquote hbare =>
    exact .bare ((lowered_lowerChars id).ne_nil hne) (quote_notMem_lower hquote)
      ((lowered_lowerChars id).all_not caseless_isSeparator hbare)

theorem JournalArguments.lower {topic digits args : List Char} (h : JournalArguments topic digits args) :
    JournalArguments (lowerChars topic) digits (lowerChars args) := by
  obtain ⟨harg, hgap, hne, hdigits⟩ := h
  have hinert : ∀ d ∈ digits, Inert d := fun d hd => Text.inert_of_isDigit (hdigits d hd)
  rw [(hgap.ends digits).lower_append, hgap.lower_append, Text.lowerChars_inert hinert]
  exact .mk harg.lower hgap hne hdigits

theorem JournalArguments.lower_append {topic digits args : List Char} (h : JournalArguments topic digits args)
    (rest : List Char) : lowerChars (args ++ rest) = lowerChars args ++ lowerChars rest := by
  obtain ⟨_harg, _hgap, hne, hdigits⟩ := h
  rename_i arg gap
  have hlast : (arg ++ (gap ++ digits)).getLast? = some (digits.getLast hne) := by
    rw [List.getLast?_append_of_ne_nil _ (by simp [hne]), List.getLast?_append_of_ne_nil _ hne,
      List.getLast?_eq_some_getLast hne]
  have hinert := Text.inert_of_isDigit (hdigits _ (List.getLast_mem hne))
  exact Text.lowerChars_append_of_getLast? hlast hinert rest

/-- **The lower case of a written command is the command written with the lower case of its id.** -/
theorem Shape.lower {word args tail : List Char} {command : Command} (h : Shape word args tail command) :
    Shape word (lowerChars args) (lowerChars tail) command.lower ∧
      lowerChars (args ++ tail) = lowerChars args ++ lowerChars tail := by
  cases h with
  | @start gap arg script _ hword hgap harg htail =>
    have htail' : lowerChars tail = tail := Text.lowerChars_inert fun c hc => inert_of_isSeparator (htail c hc)
    rw [(ends_of_all htail).lower_append, hgap.lower_append, htail', Command.lower, lower_ofList]
    exact ⟨.start hword hgap harg.lower htail, rfl⟩
  | @useQuoted gap object _ hword hgap hne hquote =>
    have hlast : (gap ++ '"' :: (object ++ ['"'])).getLast? = some '"' := by
      rw [← List.cons_append, ← List.append_assoc, List.getLast?_concat]
    rw [Text.lowerChars_append_of_getLast? hlast inert_quote, hgap.lower_append, lower_quoted, Text.lowerChars_nil,
      Command.lower, lower_ofList]
    exact ⟨.useQuoted _ hword hgap ((lowered_lowerChars object).ne_nil hne) (quote_notMem_lower hquote), rfl⟩
  | @useBare gap object _ hword hgap hne hquote hbare htail =>
    rw [htail.lower_append, hgap.lower_append, Command.lower, lower_ofList]
    exact ⟨.useBare hword hgap ((lowered_lowerChars object).ne_nil hne) (quote_notMem_lower hquote)
      ((lowered_lowerChars object).all_not caseless_isSeparator hbare) htail.lower, rfl⟩
  | @journal gap topic digits args _ hword hgap hargs hnumber htail =>
    rw [List.append_assoc, hgap.lower_append, hgap.lower_append, hargs.lower_append, Command.lower, lower_ofList,
      List.append_assoc]
    exact ⟨.journal hword hgap hargs.lower hnumber (Text.head?_lowerChars Text.caseless_isDigit htail), rfl⟩
  | @addition gap list listArg gap' entry arg _ hword hgap hlist hgap' harg htail =>
    have hargs : lowerChars (gap ++ (listArg ++ (gap' ++ arg))) =
        gap ++ (lowerChars listArg ++ (gap' ++ lowerChars arg)) := by
      rw [hgap.lower_append, (hgap'.ends arg).lower_append, hgap'.lower_append]
    rw [htail.lower_append, hargs, Command.lower, lower_ofList]
    exact ⟨.addition hword hgap hlist.lower hgap' harg.lower htail.lower, rfl⟩

/-! ## Trimmed commands -/

/-- A text that trimming leaves as it is at its end. -/
def Solid (cs : List Char) : Prop := cs ≠ [] ∧ ∀ c ∈ cs.getLast?, Text.isBlank c = false

theorem Solid.append_left {ys : List Char} (h : Solid ys) (xs : List Char) : Solid (xs ++ ys) := by
  refine ⟨by simp [h.1], ?_⟩
  rw [List.getLast?_append_of_ne_nil xs h.1]
  exact h.2

theorem solid_of_all {cs : List Char} (hne : cs ≠ []) (h : ∀ c ∈ cs, isSeparator c = false) : Solid cs :=
  ⟨hne, fun c hc => (Bool.or_eq_false_iff.1 (h c (List.mem_of_getLast? hc))).2⟩

theorem solid_quoted (cs : List Char) : Solid ('"' :: (cs ++ ['"'])) := by
  have hend : Solid ['"'] := ⟨by simp, by rintro _ ⟨⟩; decide⟩
  exact hend.append_left ('"' :: cs)

theorem Argument.solid {id arg : List Char} (h : Argument id arg) : Solid arg := by
  cases h with
  | quoted => exact solid_quoted id
  | bare hne _ hbare => exact solid_of_all hne hbare

theorem JournalArguments.solid {topic digits args : List Char} (h : JournalArguments topic digits args) :
    Solid args := by
  obtain ⟨_, _, hne, hdigits⟩ := h
  exact ((solid_of_all hne fun d hd => isSeparator_of_isDigit (hdigits d hd)).append_left _).append_left _

theorem Shape.solid {word args tail : List Char} {command : Command} (h : Shape word args tail command) :
    Solid args := by
  cases h with
  | start _ _ harg => exact harg.solid.append_left _
  | useQuoted => exact (solid_quoted _).append_left _
  | useBare _ _ hne _ hbare => exact (solid_of_all hne hbare).append_left _
  | journal _ _ hargs => exact hargs.solid.append_left _
  | addition _ _ _ _ harg => exact ((harg.solid.append_left _).append_left _).append_left _

theorem head?_of_prefix {cs cs' : List Char} (h : cs' <+: cs) : ∀ c ∈ cs'.head?, c ∈ cs.head? := by
  obtain ⟨rest, rfl⟩ := h
  cases cs' with
  | nil => rintro _ ⟨⟩
  | cons c cs' => exact fun _ hc => hc

/-- **The rest of a line can be cut short.** -/
theorem Shape.cut {word args tail tail' : List Char} {command : Command} (h : Shape word args tail command)
    (hcut : tail' <+: tail) : Shape word args tail' command := by
  have hhead := head?_of_prefix hcut
  cases h with
  | start hword hgap harg htail => exact .start hword hgap harg fun c hc => htail c (hcut.subset hc)
  | useQuoted _ hword hgap hne hquote => exact .useQuoted _ hword hgap hne hquote
  | useBare hword hgap hne hquote hbare htail =>
    exact .useBare hword hgap hne hquote hbare fun c hc => htail c (hhead c hc)
  | journal hword hgap hargs hnumber htail => exact .journal hword hgap hargs hnumber fun c hc => htail c (hhead c hc)
  | addition hword hgap hlist hgap' harg htail =>
    exact .addition hword hgap hlist hgap' harg fun c hc => htail c (hhead c hc)

theorem Shape.isWord {word args tail : List Char} {command : Command} (h : Shape word args tail command) :
    word ∈ words := by
  cases h with
  | start hword => exact startWords_subset (startWords_eq ▸ hword)
  | useQuoted _ hword => exact placementWords_subset (placementWords_eq ▸ hword)
  | useBare hword => exact placementWords_subset (placementWords_eq ▸ hword)
  | journal hword => exact journalWords_subset (journalWords_eq ▸ hword)
  | addition hword => exact levelledWords_subset (levelledWords_eq ▸ hword)

theorem Shape.ends {word args tail : List Char} {command : Command} (h : Shape word args tail command)
    (rest : List Char) : Ends (args ++ rest) := by
  cases h with
  | start _ hgap => rw [List.append_assoc]; exact hgap.ends _
  | useQuoted _ _ hgap => rw [List.append_assoc]; exact hgap.ends _
  | useBare _ hgap => rw [List.append_assoc]; exact hgap.ends _
  | journal _ hgap => rw [List.append_assoc]; exact hgap.ends _
  | addition _ hgap => rw [List.append_assoc]; exact hgap.ends _

/-! ## Words in any case -/

theorem toNat_of_isLower_toLower {c : Char} (h : c.toLower.isLower = true) : 0x40 < c.toNat ∧ c.toNat < 0x7B := by
  unfold Char.toLower at h
  split at h
  · rename_i hupper
    have hlow : 65 ≤ c.toNat := hupper.1
    have hhigh : c.toNat ≤ 90 := hupper.2
    omega
  · have hcode := toNat_of_isLower h
    omega

section Words

variable {word : List Char} (h : word.map Char.toLower ∈ words)

include h

theorem toNat_of_mem_word : ∀ c ∈ word, 0x40 < c.toNat ∧ c.toNat < 0x7B := fun _ hc =>
  toNat_of_isLower_toLower ((isLower_of_mem_words _ h).2 _ (List.mem_map_of_mem hc))

theorem word_ne_nil : word ≠ [] := by
  rintro rfl
  exact (isLower_of_mem_words _ h).1 rfl

theorem isBlank_of_mem_word : ∀ c ∈ word, Text.isBlank c = false := by
  intro c hc
  have hcode := toNat_of_mem_word h c hc
  exact isBlank_of_between (by omega) (by omega)

theorem lower_word : lowerChars word = word.map Char.toLower := by
  refine Text.lowerChars_ascii fun c hc => ?_
  have hcode := toNat_of_mem_word h c hc
  omega

end Words

/-! ## Lines -/

/-- A line that holds a written command, its word in any case, and perhaps a comment. -/
inductive Writes : List Char → Command → Prop
  | mk {lead word args tail comment : List Char} {command : Command} (hlead : ∀ c ∈ lead, isSeparator c = true)
      (hshape : Shape (word.map Char.toLower) args tail command) (hsemicolon : ';' ∉ lead ++ (word ++ (args ++ tail)))
      (harrow : ¬ HasArrow (lead ++ (word ++ (args ++ tail)))) (hcomment : ∀ c ∈ comment.head?, c = ';') :
      Writes (lead ++ (word ++ (args ++ tail)) ++ comment) command

section Lines

variable {lead word args tail : List Char} {command : Command}

theorem command?_lower (hlead : ∀ c ∈ lead, isSeparator c = true) (h : Shape (word.map Char.toLower) args tail command)
    (harrow : ¬ HasArrow (lead ++ (word ++ (args ++ tail)))) :
    command? (String.ofList (lowerChars (lead ++ (word ++ (args ++ tail))))) = some command.lower := by
  have hlower : lowerChars (lead ++ (word ++ (args ++ tail))) =
      lead ++ (word.map Char.toLower ++ (lowerChars args ++ lowerChars tail)) := by
    rw [Text.lowerChars_inert_append fun c hc => inert_of_isSeparator (hlead c hc), (h.ends tail).lower_append,
      lower_word h.isWord, h.lower.2]
  have harrow' := fun hin => harrow (hasArrow_of_lowered (lowered_lowerChars _) hin)
  rw [hlower] at harrow' ⊢
  exact command?_of_shape hlead h.lower.1 harrow'

theorem trim_written (hlead : ∀ c ∈ lead, isSeparator c = true) (h : Shape (word.map Char.toLower) args tail command) :
    ∃ lead' tail', (∀ c ∈ lead', isSeparator c = true) ∧ Shape (word.map Char.toLower) args tail' command ∧
      Text.trim (lead ++ (word ++ (args ++ tail))) = lead' ++ (word ++ (args ++ tail')) := by
  have hsolid : Solid (word ++ args) := h.solid.append_left word
  have hfirst : ∀ c ∈ (word ++ args).head?, Text.isBlank c = false := by
    rw [head?_append_of_ne_nil (word_ne_nil h.isWord)]
    exact fun c hc => isBlank_of_mem_word h.isWord c (List.mem_of_mem_head? hc)
  have htrim := trim_around hsolid.1 hfirst hsolid.2 lead tail
  rw [List.append_assoc, List.append_assoc] at htrim
  exact ⟨_, _, fun c hc => hlead c ((List.dropWhile_suffix _).subset hc), h.cut (trimEnd_isPrefix tail), htrim⟩

end Lines

/-- **A line that writes a command is read as that command on the key of its id.** -/
theorem Writes.read {chars : List Char} {command : Command} (h : Writes chars command) :
    ∃ line, Line.ofChars? chars = some line ∧ command? line.code = some command.lower := by
  cases h with
  | @mk lead word args tail comment _ hlead hshape hsemicolon harrow hcomment =>
    obtain ⟨lead', tail', hlead', hshape', htrim⟩ := trim_written hlead hshape
    have hinfix := trim_infix (lead ++ (word ++ (args ++ tail)))
    have hcode : codePart (lead ++ (word ++ (args ++ tail)) ++ comment) = lead ++ (word ++ (args ++ tail)) :=
      codePart_eq (fun c hc => bne_iff_ne.2 fun e => hsemicolon (e ▸ hc)) fun c hc => by rw [hcomment c hc]; rfl
    rw [htrim] at hinfix
    have hread := command?_lower hlead' hshape' fun hin => harrow (hin.trans hinfix)
    rw [← htrim, ← hcode] at hread
    have hne : lowerChars (Text.trim (codePart (lead ++ (word ++ (args ++ tail)) ++ comment))) ≠ [] := by
      rw [hcode, htrim]
      exact (lowered_lowerChars _).ne_nil (by simp [word_ne_nil hshape.isWord])
    obtain ⟨comment', hline⟩ := ofChars?_of_code hne
    exact ⟨_, hline, hread⟩

/-! ## Keys -/

/-- The id of what a call is about, as it is written, and the key that it is told with. -/
def keyed? : Call → Option (String × String)
  | .record record key => some (record.id, key)
  | .reference _ reference key _ => some (reference.id, key)
  | .levelledEntry _ entry key _ => some (entry.id, key)
  | .inventoryEntry _ entry key _ => some (entry.id, key)
  | _ => none

theorem keyed?_of_mem_calls {topic : Option Dialogue} {record : Record} {call : Call}
    (hcall : call ∈ Stream.recordCalls topic record) {id key : String} (hkey : keyed? call = some (id, key)) :
    key = Text.lower id := by
  rw [Protocol.recordCalls_eq] at hcall
  rcases List.mem_cons.1 hcall with rfl | hcall
  · cases hkey
    rfl
  · cases record with
    | cell | levelled | actor =>
      obtain ⟨_, _, rfl⟩ := List.mem_map.1 hcall
      cases hkey
      rfl
    | info info =>
      rcases List.mem_cons.1 hcall with rfl | hcall
      · cases hkey
      · obtain ⟨_, _, rfl⟩ := List.mem_map.1 hcall
        cases hkey
    | script script =>
      obtain ⟨_, _, rfl⟩ := List.mem_map.1 hcall
      cases hkey
    | _ => cases hcall

theorem scriptLine_mem_calls {owner : Record} {body : String} (hbody : Ledger.body? owner = some body)
    {line : Line} (hline : line ∈ lines body) (topic : Option Dialogue) :
    ∃ topic', Call.scriptLine owner line topic' ∈ Stream.recordCalls topic owner := by
  rw [Protocol.recordCalls_eq]
  cases owner with
  | info info =>
    have hresult : info.result.getD "" = body := by rw [show info.result = some body from hbody, Option.getD_some]
    refine ⟨topic, List.mem_cons_of_mem _ (List.mem_cons_of_mem _ (List.mem_map.2 ⟨line, ?_, rfl⟩))⟩
    rwa [hresult]
  | script script =>
    obtain rfl : script.text = body := Option.some.inj hbody
    exact ⟨none, List.mem_cons_of_mem _ (List.mem_map.2 ⟨line, hline, rfl⟩)⟩
  | _ => cases hbody

/-- **The keys in scripts agree with the keys of records.**  A command that a line of a script or of a result writes, in
any case, is read with the key under which whatever has its id is told of. -/
theorem keys_agree {chars : List Char} {command : Command} {owner : Record} {body : String} (h : Writes chars command)
    (hbody : Ledger.body? owner = some body) (hline : IsLineOf chars body.toList) :
    (∀ topic, ∃ line topic', Call.scriptLine owner line topic' ∈ Stream.recordCalls topic owner ∧
      command? line.code = some command.lower) ∧
    ∀ topic record, ∀ call ∈ Stream.recordCalls topic record, ∀ key,
      keyed? call = some (command.id, key) → key = command.lower.id := by
  obtain ⟨line, hchars, hread⟩ := h.read
  refine ⟨fun topic => ?_, fun topic record call hcall key hkey => ?_⟩
  · obtain ⟨topic', hmem⟩ := scriptLine_mem_calls hbody (mem_lines hline hchars) topic
    exact ⟨line, topic', hmem, hread⟩
  · rw [Command.id_lower]
    exact keyed?_of_mem_calls hcall hkey

/-- An id that ends in a sigma, in quotes and bare, in a command of each shape. -/
theorem final_sigma_agrees :
    let body := "  StartScript \"ΣΑΣ\" ; go\nPlaceItem ΣΑΣ, 1\nSetJournalIndex \"ΣΑΣ\" 10\nAddToLevItem Bag ΣΑΣ"
    let owner : Record := .script ⟨"a", body⟩
    (∀ p ∈ [("  StartScript \"ΣΑΣ\" ; go", Command.start "ΣΑΣ", Command.start "σας"),
        ("PlaceItem ΣΑΣ, 1", .use "ΣΑΣ", .use "σας"),
        ("SetJournalIndex \"ΣΑΣ\" 10", .journal "ΣΑΣ" 10, .journal "σας" 10),
        ("AddToLevItem Bag ΣΑΣ", .use "ΣΑΣ", .use "σας")],
      Writes p.1.toList p.2.1 ∧ IsLineOf p.1.toList body.toList ∧
        ∃ line topic, Call.scriptLine owner line topic ∈ Stream.recordCalls none owner ∧
          command? line.code = some p.2.2) ∧
    ∀ key, Call.record (.script ⟨"ΣΑΣ", ""⟩) key ∈ Stream.recordCalls none (.script ⟨"ΣΑΣ", ""⟩) → key = "σας" := by
  intro body owner
  have hspace : Gap [' '] := ⟨by decide, List.all_eq_true.1 (by decide)⟩
  have hnone : ∀ c ∈ ([] : List Char), isSeparator c = true := fun _ hc => absurd hc List.not_mem_nil
  have hquoted : Argument "ΣΑΣ".toList "\"ΣΑΣ\"".toList := .quoted (by decide) (by decide)
  have hbare : Argument "ΣΑΣ".toList "ΣΑΣ".toList := .bare (by decide) (by decide) (bare_of_all (by decide))
  have hbag : Argument "Bag".toList "Bag".toList := .bare (by decide) (by decide) (bare_of_all (by decide))
  have hstart : Writes "  StartScript \"ΣΑΣ\" ; go".toList (.start "ΣΑΣ") := by
    have hshape : Shape ("StartScript".toList.map Char.toLower) " \"ΣΑΣ\"".toList [' '] (.start "ΣΑΣ") :=
      .start (by decide) hspace hquoted (List.all_eq_true.1 (by decide))
    have hlead : ∀ c ∈ [' ', ' '], isSeparator c = true := List.all_eq_true.1 (by decide)
    have hcomment : ∀ c ∈ "; go".toList.head?, c = ';' := by rintro _ ⟨⟩; rfl
    exact .mk hlead hshape (by decide) (by decide +kernel) hcomment
  have hend : ∀ c ∈ ([] : List Char).head?, c = ';' := by rintro _ ⟨⟩
  have hplace : Writes "PlaceItem ΣΑΣ, 1".toList (.use "ΣΑΣ") := by
    have hshape : Shape ("PlaceItem".toList.map Char.toLower) " ΣΑΣ".toList ", 1".toList (.use "ΣΑΣ") :=
      .useBare (by decide) hspace (by decide) (by decide) (bare_of_all (by decide)) (by rintro _ ⟨⟩; decide)
    exact .mk hnone hshape (by decide) (by decide +kernel) hend
  have hjournal : Writes "SetJournalIndex \"ΣΑΣ\" 10".toList (.journal "ΣΑΣ" 10) := by
    have hargs : JournalArguments "ΣΑΣ".toList "10".toList "\"ΣΑΣ\" 10".toList :=
      .mk hquoted hspace (by decide) (List.all_eq_true.1 (by decide))
    have hshape : Shape ("SetJournalIndex".toList.map Char.toLower) " \"ΣΑΣ\" 10".toList [] (.journal "ΣΑΣ" 10) :=
      .journal (by decide) hspace hargs (by decide +kernel) (by rintro _ ⟨⟩)
    exact .mk hnone hshape (by decide) (by decide +kernel) hend
  have hlist : Writes "AddToLevItem Bag ΣΑΣ".toList (.use "ΣΑΣ") := by
    have hshape : Shape ("AddToLevItem".toList.map Char.toLower) " Bag ΣΑΣ".toList [] (.use "ΣΑΣ") :=
      .addition (by decide) hspace hbag hspace hbare (by rintro _ ⟨⟩)
    exact .mk hnone hshape (by decide) (by decide +kernel) hend
  have hlines : splitLines body.toList = ["  StartScript \"ΣΑΣ\" ; go".toList, "PlaceItem ΣΑΣ, 1".toList,
      "SetJournalIndex \"ΣΑΣ\" 10".toList, "AddToLevItem Bag ΣΑΣ".toList] := by decide +kernel
  have hlower : Text.lower "ΣΑΣ" = "σας" := by decide +kernel
  have hbody : Ledger.body? owner = some body := rfl
  have hread {chars : List Char} {command key : Command} (h : Writes chars command)
      (hin : chars ∈ splitLines body.toList) (hkey : command.lower = key) :
      Writes chars command ∧ IsLineOf chars body.toList ∧
        ∃ line topic, Call.scriptLine owner line topic ∈ Stream.recordCalls none owner ∧
          command? line.code = some key := by
    obtain ⟨line, topic, hmem, hcommand⟩ := (keys_agree h hbody (isLineOf_iff.2 hin)).1 none
    exact ⟨h, isLineOf_iff.2 hin, line, topic, hmem, hkey ▸ hcommand⟩
  have hfirst : "  StartScript \"ΣΑΣ\" ; go".toList ∈ splitLines body.toList := by rw [hlines]; exact .head _
  rw [hlines] at hread
  refine ⟨?_, fun key hmem => ?_⟩
  · simp only [List.forall_mem_cons]
    exact ⟨hread hstart (.head _) (congrArg Command.start hlower),
      hread hplace (.tail _ (.head _)) (congrArg Command.use hlower),
      hread hjournal (.tail _ (.tail _ (.head _))) (congrArg (Command.journal · 10) hlower),
      hread hlist (.tail _ (.tail _ (.tail _ (.head _)))) (congrArg Command.use hlower), List.forall_mem_nil _⟩
  · rw [(keys_agree hstart hbody (isLineOf_iff.2 hfirst)).2 none _ _ hmem key rfl, Command.id_lower, Command.id, hlower]

end Script
end WorldAudit
