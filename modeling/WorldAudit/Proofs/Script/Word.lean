import WorldAudit.Script.Command
/-!
# Word — the word of a command

A command begins with a word, and separators stand between the word and its arguments.  Words hold small letters only,
so a text begins with one word at the most (`laid_unique`), and the arguments of a command are what follows the word and
its separators (`arguments?_eq_some_iff`).
-/
namespace WorldAudit
namespace Script

section Runs

variable {p : Char → Bool} {run rest : List Char}

theorem takeWhile_run (hrun : ∀ c ∈ run, p c = true) (hrest : ∀ c ∈ rest.head?, p c = false) :
    (run ++ rest).takeWhile p = run := by
  rw [List.takeWhile_append_of_pos hrun]
  cases rest with
  | nil => simp
  | cons c rest => simp [hrest c rfl]

theorem dropWhile_run (hrun : ∀ c ∈ run, p c = true) (hrest : ∀ c ∈ rest.head?, p c = false) :
    (run ++ rest).dropWhile p = rest := by
  rw [List.dropWhile_append_of_pos hrun]
  cases rest with
  | nil => rfl
  | cons c rest => simp [hrest c rfl]

end Runs

/-! ## Separators -/

/-- What stands between a word and an argument, and between two arguments. -/
def Gap (gap : List Char) : Prop := gap ≠ [] ∧ ∀ c ∈ gap, isSeparator c = true

def BeginsBare (cs : List Char) : Prop := ∀ c ∈ cs.head?, isSeparator c = false

/-- The end of the text, or a separator. -/
def Ends (cs : List Char) : Prop := ∀ c ∈ cs.head?, isSeparator c = true

theorem Gap.ends {gap : List Char} (h : Gap gap) (rest : List Char) : Ends (gap ++ rest) := by
  intro c hc
  cases gap with
  | nil => exact absurd rfl h.1
  | cons s gap =>
    obtain rfl : s = c := Option.some.inj hc
    exact h.2 s List.mem_cons_self

theorem bare_of_all {cs : List Char} (h : cs.all isBare = true) : ∀ c ∈ cs, isSeparator c = false := by
  intro c hc
  simpa [isBare] using List.all_eq_true.1 h c hc

theorem ends_of_all {cs : List Char} (h : ∀ c ∈ cs, isSeparator c = true) : Ends cs :=
  fun c hc => h c (List.mem_of_mem_head? hc)

theorem BeginsBare.append {cs : List Char} (h : BeginsBare cs) (hne : cs ≠ []) (rest : List Char) :
    BeginsBare (cs ++ rest) := by
  cases cs with
  | nil => exact absurd rfl hne
  | cons c cs => exact h

theorem skipSeparators_run {lead rest : List Char} (hlead : ∀ c ∈ lead, isSeparator c = true)
    (hrest : BeginsBare rest) : skipSeparators (lead ++ rest) = rest :=
  dropWhile_run hlead hrest

theorem skipSeparators_of_beginsBare {cs : List Char} (h : BeginsBare cs) : skipSeparators cs = cs := by
  have hnone : ∀ c ∈ ([] : List Char), isSeparator c = true := fun _ hc => by cases hc
  exact skipSeparators_run hnone h

theorem separated?_eq_some_iff {cs rest : List Char} :
    separated? cs = some rest ↔ ∃ gap, Gap gap ∧ BeginsBare rest ∧ cs = gap ++ rest := by
  constructor
  · intro h
    cases cs with
    | nil => cases h
    | cons c cs =>
      rw [separated?] at h
      split at h
      · rename_i hc
        obtain rfl := Option.some.inj h
        refine ⟨c :: cs.takeWhile isSeparator, ⟨by simp, ?_⟩, ?_, ?_⟩
        · intro d hd
          rcases List.mem_cons.1 hd with rfl | hd
          · exact hc
          · exact List.all_eq_true.1 List.all_takeWhile d hd
        · intro d hd
          have := List.head?_dropWhile_not isSeparator cs
          rw [← skipSeparators, Option.mem_def.1 hd] at this
          simpa using this
        · rw [List.cons_append, skipSeparators, List.takeWhile_append_dropWhile]
      · cases h
  · rintro ⟨gap, ⟨hne, hgap⟩, hrest, rfl⟩
    cases gap with
    | nil => exact absurd rfl hne
    | cons s gap =>
      rw [List.cons_append, separated?, if_pos (hgap s List.mem_cons_self),
        skipSeparators_run (fun c hc => hgap c (List.mem_cons_of_mem s hc)) hrest]

theorem separated?_gap {gap rest : List Char} (hgap : Gap gap) (hrest : BeginsBare rest) :
    separated? (gap ++ rest) = some rest :=
  separated?_eq_some_iff.2 ⟨gap, hgap, hrest, rfl⟩

/-! ## Words -/

/-- The words of all commands. -/
def words : List (List Char) := startWords ++ placementWords ++ journalWords ++ levelledWords

theorem isLower_of_mem_words : ∀ word ∈ words, word ≠ [] ∧ ∀ c ∈ word, c.isLower = true := by
  have h : words.all (fun word => !word.isEmpty && word.all Char.isLower) = true := by decide
  intro word hword
  simpa using List.all_eq_true.1 h word hword

/-- No white space stands between the space and the next-line control. -/
theorem isBlank_of_between {c : Char} (hlow : 0x20 < c.toNat) (hhigh : c.toNat < 0x85) : Text.isBlank c = false := by
  unfold Text.isBlank Text.blankRuns
  grind [Text.inRuns]

theorem isSeparator_of_between {c : Char} (hlow : 0x2C < c.toNat) (hhigh : c.toNat < 0x85) : isSeparator c = false := by
  have hcomma : c ≠ ',' := by rintro rfl; exact absurd hlow (by decide)
  rw [isSeparator, isBlank_of_between (by omega) hhigh, Bool.or_false]
  simpa using hcomma

theorem toNat_of_isLower {c : Char} (h : c.isLower = true) : 97 ≤ c.toNat ∧ c.toNat ≤ 122 := by
  obtain ⟨hlow, hhigh⟩ := Bool.and_eq_true_iff.1 h
  exact ⟨of_decide_eq_true hlow, of_decide_eq_true hhigh⟩

theorem isSeparator_of_isLower {c : Char} (h : c.isLower = true) : isSeparator c = false := by
  have hcode := toNat_of_isLower h
  exact isSeparator_of_between (by omega) (by omega)

theorem toNat_of_isDigit {c : Char} (h : c.isDigit = true) : 48 ≤ c.toNat ∧ c.toNat ≤ 57 := by
  obtain ⟨hlow, hhigh⟩ := Bool.and_eq_true_iff.1 h
  exact ⟨of_decide_eq_true hlow, of_decide_eq_true hhigh⟩

theorem isSeparator_of_isDigit {c : Char} (h : c.isDigit = true) : isSeparator c = false := by
  have hcode := toNat_of_isDigit h
  exact isSeparator_of_between (by omega) (by omega)

theorem isSeparator_of_mem_word {word : List Char} (h : word ∈ words) : ∀ c ∈ word, isSeparator c = false :=
  fun c hc => isSeparator_of_isLower ((isLower_of_mem_words word h).2 c hc)

theorem beginsBare_word {word : List Char} (h : word ∈ words) (rest : List Char) : BeginsBare (word ++ rest) := by
  obtain ⟨hne, _⟩ := isLower_of_mem_words word h
  exact BeginsBare.append (fun c hc => isSeparator_of_mem_word h c (List.mem_of_mem_head? hc)) hne rest

/-- A text that begins with a word, separators and what is no separator. -/
structure Laid (word rest cs : List Char) : Prop where
  isWord : word ∈ words
  bare : BeginsBare rest
  eq : ∃ gap, Gap gap ∧ cs = word ++ (gap ++ rest)

theorem Laid.takeWhile_isBare {word rest cs : List Char} (h : Laid word rest cs) : cs.takeWhile isBare = word := by
  obtain ⟨gap, hgap, rfl⟩ := h.eq
  refine takeWhile_run (fun c hc => ?_) fun c hc => ?_
  · rw [isBare, isSeparator_of_mem_word h.isWord c hc]; rfl
  · rw [isBare, hgap.ends rest c hc]; rfl

/-- **A text begins with one word at the most.** -/
theorem laid_unique {word word' rest rest' cs : List Char} (h : Laid word rest cs) (h' : Laid word' rest' cs) :
    word = word' ∧ rest = rest' := by
  have hword : word = word' := h.takeWhile_isBare.symm.trans h'.takeWhile_isBare
  obtain ⟨gap, hgap, heq⟩ := h.eq
  obtain ⟨gap', hgap', heq'⟩ := h'.eq
  rw [heq, ← hword, List.append_cancel_left_eq] at heq'
  have hrest := separated?_gap hgap h.bare
  rw [heq', separated?_gap hgap' h'.bare] at hrest
  exact ⟨hword, (Option.some.inj hrest).symm⟩

theorem after?_separated?_eq_some_iff {word cs rest : List Char} (hword : word ∈ words) :
    (Text.after? word cs).bind separated? = some rest ↔ Laid word rest cs := by
  constructor
  · intro h
    obtain ⟨tail, htail, hrest⟩ := Option.bind_eq_some_iff.1 h
    obtain ⟨gap, hgap, hbare, rfl⟩ := separated?_eq_some_iff.1 hrest
    exact ⟨hword, hbare, gap, hgap, Text.after?_eq_some_iff.1 htail⟩
  · rintro ⟨_, hbare, gap, hgap, rfl⟩
    rw [Text.after?_eq_some_iff.2 rfl]
    exact separated?_gap hgap hbare

/-- **The arguments of a command** are what follows its word and the separators behind it. -/
theorem arguments?_eq_some_iff {ws : List (List Char)} (hws : ws ⊆ words) {cs rest : List Char} :
    arguments? ws cs = some rest ↔ ∃ word ∈ ws, Laid word rest cs := by
  constructor
  · intro h
    obtain ⟨word, hword, hrest⟩ := List.exists_of_findSome?_eq_some h
    exact ⟨word, hword, (after?_separated?_eq_some_iff (hws hword)).1 hrest⟩
  · rintro ⟨word, hword, hlaid⟩
    have hsome : (arguments? ws cs).isSome = true :=
      List.findSome?_isSome_iff.2 ⟨word, hword, by rw [(after?_separated?_eq_some_iff (hws hword)).2 hlaid]; rfl⟩
    obtain ⟨rest', hrest'⟩ := Option.isSome_iff_exists.1 hsome
    obtain ⟨word', hword', hlaid'⟩ := List.exists_of_findSome?_eq_some hrest'
    rw [hrest', (laid_unique hlaid ((after?_separated?_eq_some_iff (hws hword')).1 hlaid')).2]

theorem Laid.arguments? {word rest cs : List Char} (h : Laid word rest cs) {ws : List (List Char)} (hws : ws ⊆ words) :
    arguments? ws cs = if word ∈ ws then some rest else none := by
  split
  · rename_i hm
    exact (arguments?_eq_some_iff hws).2 ⟨word, hm, h⟩
  · rename_i hm
    refine Option.eq_none_iff_forall_ne_some.2 fun rest' hrest' => ?_
    obtain ⟨word', hword', h'⟩ := (arguments?_eq_some_iff hws).1 hrest'
    exact hm ((laid_unique h h').1 ▸ hword')

end Script
end WorldAudit
