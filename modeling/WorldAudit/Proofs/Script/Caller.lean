import WorldAudit.Proofs.Script.Word
/-!
# Caller — a command called on another object

What precedes an arrow is passed over.  A caller that holds no arrow itself adds one place where a command may start
(`starts_caller`), and at that place no word stands, so the command of a line is that of what follows the arrow.
-/
namespace WorldAudit
namespace Script

def HasArrow (cs : List Char) : Prop := ['-', '>'] <:+: cs

instance (cs : List Char) : Decidable (HasArrow cs) := inferInstanceAs (Decidable (['-', '>'] <:+: cs))

theorem hasArrow_cons {c : Char} {cs : List Char} (h : HasArrow cs) : HasArrow (c :: cs) :=
  List.IsInfix.trans h (List.suffix_cons c cs).isInfix

theorem afterArrows_cons {c : Char} {cs : List Char} (hc : c ≠ '\n') (h : ¬ (c = '-' ∧ cs.head? = some '>')) :
    afterArrows (c :: cs) = afterArrows cs := by
  rw [afterArrows, if_neg hc]
  rintro rest rfl rfl
  exact h ⟨rfl, rfl⟩

theorem not_arrow_head {c : Char} {cs : List Char} (h : ¬ HasArrow (c :: cs)) : ¬ (c = '-' ∧ cs.head? = some '>') := by
  rintro ⟨rfl, hhead⟩
  obtain ⟨rest, rfl⟩ := List.head?_eq_some_iff.1 hhead
  exact h ⟨[], rest, rfl⟩

theorem afterArrows_of_not_hasArrow {cs : List Char} (h : ¬ HasArrow cs) : afterArrows cs = [] := by
  induction cs with
  | nil => rfl
  | cons c cs ih =>
    by_cases hc : c = '\n'
    · subst hc
      rw [afterArrows, if_pos rfl]
      rintro rest ⟨⟩
    · rw [afterArrows_cons hc (not_arrow_head h), ih fun hcs => h (hasArrow_cons hcs)]

/-- **A line without an arrow has one place for a command.** -/
theorem starts_of_not_hasArrow {cs : List Char} (h : ¬ HasArrow cs) : starts cs = [skipSeparators cs] := by
  rw [starts, afterArrows_of_not_hasArrow h]
  rfl

theorem afterArrows_append {e : List Char} (harrow : ¬ HasArrow e) (hfeed : '\n' ∉ e) (rest : List Char) :
    afterArrows (e ++ '-' :: '>' :: rest) = rest :: afterArrows rest := by
  induction e with
  | nil =>
    have hgreater : afterArrows ('>' :: rest) = afterArrows rest := afterArrows_cons (by decide) (by simp)
    rw [List.nil_append, afterArrows, if_neg (by decide)]
    exact congrArg _ hgreater
  | cons c e ih =>
    rw [List.mem_cons, not_or] at hfeed
    have hnext : ¬ (c = '-' ∧ (e ++ '-' :: '>' :: rest).head? = some '>') := by
      rintro ⟨rfl, hhead⟩
      cases e with
      | nil => cases hhead
      | cons d e => exact not_arrow_head harrow ⟨rfl, hhead⟩
    rw [List.cons_append, afterArrows_cons (Ne.symm hfeed.1) hnext, ih (fun he => harrow (hasArrow_cons he)) hfeed.2]

/-! ## Callers -/

/-- What a command can be called on: a text without an arrow on one line, which is quoted or has no separators. -/
structure IsCaller (e : String) : Prop where
  noArrow : ¬ HasArrow e.toList
  oneLine : '\n' ∉ e.toList
  bareOrQuoted : (∀ c ∈ e.toList, isSeparator c = false) ∨ e.toList.head? = some '"'

theorem starts_caller {e : String} (h : IsCaller e) (rest : List Char) :
    starts (e.toList ++ '-' :: '>' :: rest) = skipSeparators (e.toList ++ '-' :: '>' :: rest) :: starts rest := by
  rw [starts, afterArrows_append h.noArrow h.oneLine]
  rfl

/-- Before the first separator of a command there are small letters only. -/
theorem arguments?_eq_none (front : List Char) {c : Char} {back : List Char}
    (hfront : ∀ d ∈ front, isSeparator d = false) (hc : isSeparator c = false) (hlower : c.isLower = false)
    {ws : List (List Char)} (hws : ws ⊆ words) :
    arguments? ws (skipSeparators (front ++ c :: back)) = none := by
  have hbare : BeginsBare (front ++ c :: back) := by
    cases front with
    | nil => rintro d ⟨⟩; exact hc
    | cons d front => rintro d' ⟨⟩; exact hfront d List.mem_cons_self
  have hskip := skipSeparators_of_beginsBare hbare
  refine Option.eq_none_iff_forall_ne_some.2 fun rest hrest => ?_
  obtain ⟨word, hword, hlaid⟩ := (arguments?_eq_some_iff hws).1 hrest
  have hmem : c ∈ word := by
    rw [← hlaid.takeWhile_isBare, hskip,
      List.takeWhile_append_of_pos fun d hd => by rw [isBare, hfront d hd]; rfl,
      List.takeWhile_cons_of_pos (by rw [isBare, hc]; rfl)]
    exact List.mem_append_right _ List.mem_cons_self
  have := (isLower_of_mem_words word (hws hword)).2 c hmem
  rw [hlower] at this
  cases this

/-- **No command starts in front of a caller.** -/
theorem arguments?_caller {e : String} (h : IsCaller e) (rest : List Char) {ws : List (List Char)} (hws : ws ⊆ words) :
    arguments? ws (skipSeparators (e.toList ++ '-' :: '>' :: rest)) = none := by
  rcases h.bareOrQuoted with hbare | hquote
  · exact arguments?_eq_none _ hbare (by decide) (by decide) hws
  · obtain ⟨cs, hcs⟩ := List.head?_eq_some_iff.1 hquote
    rw [hcs]
    exact arguments?_eq_none [] (fun _ hd => by cases hd) (by decide) (by decide) hws

section None

variable {cs : List Char}

theorem start?_eq_none (h : arguments? startWords cs = none) : start? cs = none := by rw [start?, h]; rfl

theorem placement?_eq_none (h : arguments? placementWords cs = none) : placement? cs = none := by
  rw [placement?, h]; rfl

theorem journal?_eq_none (h : arguments? journalWords cs = none) : journal? cs = none := by rw [journal?, h]; rfl

theorem addition?_eq_none (h : arguments? levelledWords cs = none) : addition? cs = none := by rw [addition?, h]; rfl

end None

theorem startWords_subset : startWords ⊆ words := by decide

theorem placementWords_subset : placementWords ⊆ words := by decide

theorem journalWords_subset : journalWords ⊆ words := by decide

theorem levelledWords_subset : levelledWords ⊆ words := by decide

theorem command?_caller {e : String} (h : IsCaller e) (line : String) :
    command? (e ++ "->" ++ line) = command? line := by
  have hchars : (e ++ "->" ++ line).toList = e.toList ++ '-' :: '>' :: line.toList := by
    rw [String.toList_append, String.toList_append, List.append_assoc]; rfl
  have hnone {ws : List (List Char)} (hws : ws ⊆ words) := arguments?_caller h line.toList hws
  unfold command?
  rw [hchars, starts_caller h]
  simp only [List.findSome?_cons, start?_eq_none (hnone startWords_subset),
    placement?_eq_none (hnone placementWords_subset), journal?_eq_none (hnone journalWords_subset),
    addition?_eq_none (hnone levelledWords_subset)]

/-- **Callers are passed over**: a command does the same, whatever chain of callers it is called on. -/
theorem callers_passed_over (line : String) :
    (∀ e, IsCaller e → command? (e ++ "->" ++ line) = command? line) ∧
    ∀ es : List String, (∀ e ∈ es, IsCaller e) →
      command? (es.foldr (fun e rest => e ++ "->" ++ rest) line) = command? line := by
  refine ⟨fun e h => command?_caller h line, fun es h => ?_⟩
  induction es with
  | nil => rfl
  | cons e es ih =>
    rw [List.foldr_cons, command?_caller (h e List.mem_cons_self), ih fun e' he' => h e' (List.mem_cons_of_mem e he')]

/-- A quoted caller with separators, called on another one. -/
theorem two_callers_passed_over :
    IsCaller "\"my npc\"" ∧ IsCaller "player" ∧
    command? "\"my npc\"->player->additem gold" = command? "additem gold" ∧
    command? "additem gold" = some (.use "gold") := by
  have hquoted : IsCaller "\"my npc\"" := ⟨by decide +kernel, by decide, .inr (by decide)⟩
  have hbare : IsCaller "player" := ⟨by decide +kernel, by decide, .inl (bare_of_all (by decide))⟩
  have hchain := (callers_passed_over "additem gold").2 ["\"my npc\"", "player"] fun e he => by
    rcases List.mem_cons.1 he with rfl | he
    · exact hquoted
    · exact List.mem_singleton.1 he ▸ hbare
  exact ⟨hquoted, hbare, hchain, by decide +kernel⟩

end Script
end WorldAudit
