import WorldAudit.Proofs.Reachability.Facts
/-!
# Orphans — the rule reports the balance of the ledger

The catalogs that the rule reads off its facts are those of the entries of the ledger, and what it finds in no use is
what the ledger misses.  A run of the rule alone over any files, unless it is in the mode whose records declare nothing,
reports the balance and nothing else.
-/
namespace WorldAudit
namespace Rules

open Ledger Rules.Fact

/-! ## Ascending indices -/

theorem mem_insertIndex (k n : Int) : ∀ (l : List Int), k ∈ insertIndex n l ↔ k = n ∨ k ∈ l
  | [] => by simp [insertIndex]
  | m :: rest => by
    have ih := mem_insertIndex k n rest
    unfold insertIndex
    split
    · rename_i h
      subst h
      simp
    · split
      · simp
      · rw [List.mem_cons, ih, List.mem_cons]
        exact or_left_comm

theorem pairwise_insertIndex (n : Int) : ∀ {l : List Int}, l.Pairwise (· < ·) → (insertIndex n l).Pairwise (· < ·)
  | [], _ => List.pairwise_singleton _ _
  | m :: rest, h => by
    obtain ⟨hm, hrest⟩ := List.pairwise_cons.1 h
    unfold insertIndex
    split
    · exact h
    · split
      · refine List.pairwise_cons.2 ⟨fun k hk => ?_, h⟩
        rcases List.mem_cons.1 hk with rfl | hk
        · assumption
        · have := hm k hk
          omega
      · refine List.pairwise_cons.2 ⟨fun k hk => ?_, pairwise_insertIndex n hrest⟩
        rcases (mem_insertIndex k n rest).1 hk with rfl | hk
        · omega
        · exact hm k hk

theorem foldl_insertIndex : ∀ (ns l : List Int), l.Pairwise (· < ·) →
    (ns.foldl (fun l n => insertIndex n l) l).Pairwise (· < ·) ∧
    ∀ k, k ∈ ns.foldl (fun l n => insertIndex n l) l ↔ k ∈ ns ∨ k ∈ l
  | [], l, h => ⟨h, fun k => by simp⟩
  | n :: ns, l, h => by
    obtain ⟨hp, hm⟩ := foldl_insertIndex ns (insertIndex n l) (pairwise_insertIndex n h)
    refine ⟨hp, fun k => ?_⟩
    rw [List.foldl_cons, hm, mem_insertIndex, List.mem_cons]
    exact or_left_comm.trans or_assoc.symm

/-! ## What is declared -/

theorem declaredScripts_eq (facts : List Fact) :
    declaredScripts facts = Catalog.ofEntries (facts.filterMap declaredScript?) := by
  rw [Catalog.ofEntries, List.foldl_filterMap]
  refine congrArg (List.foldl · [] facts) (funext fun c => funext fun f => ?_)
  cases f <;> rfl

theorem declaredEnchantments_eq (facts : List Fact) :
    declaredEnchantments facts = Catalog.ofEntries (facts.filterMap declaredEnchantment?) := by
  rw [Catalog.ofEntries, List.foldl_filterMap]
  refine congrArg (List.foldl · [] facts) (funext fun c => funext fun f => ?_)
  cases f <;> rfl

theorem declaredObjects_eq (facts : List Fact) :
    declaredObjects facts = Catalog.ofEntries (facts.filterMap declaredObject?) := by
  rw [Catalog.ofEntries, List.foldl_filterMap]
  refine congrArg (List.foldl · [] facts) (funext fun c => funext fun f => ?_)
  cases f <;> rfl

theorem declaredJournals_eq (facts : List Fact) :
    declaredJournals facts = Catalog.ofFirstEntries (facts.filterMap declaredJournal?) := by
  rw [Catalog.ofFirstEntries, List.foldl_filterMap]
  refine congrArg (List.foldl · [] facts) (funext fun c => funext fun f => ?_)
  cases f <;> rfl

theorem declaredIndices_eq (topic : String) (facts : List Fact) :
    declaredIndices topic facts =
      ((((facts.dropWhile (!·.isJournal topic)).filterMap declaredIndex?).filter (·.1 == topic)).map Prod.snd).foldl
        (fun l n => insertIndex n l) [] := by
  rw [List.foldl_map, List.foldl_filter, List.foldl_filterMap]
  refine congrArg (List.foldl · [] _) (funext fun c => funext fun f => ?_)
  cases f <;> rfl

/-- In founded facts the indices passed over before the journal is declared are not of its topic. -/
theorem indices_dropWhile {topic : String} {facts : List Fact} (h : Founded topic facts) :
    ((facts.dropWhile (!·.isJournal topic)).filterMap declaredIndex?).filter (·.1 == topic) =
      (facts.filterMap declaredIndex?).filter (·.1 == topic) := by
  have hnone : ((facts.takeWhile (!·.isJournal topic)).filterMap declaredIndex?).filter (·.1 == topic) = [] := by
    refine List.filter_eq_nil_iff.2 fun e he ht => ?_
    obtain ⟨f, hf, hfe⟩ := List.mem_filterMap.1 he
    cases f with
    | declaresIndex t n => cases hfe; exact h n (eq_of_beq ht ▸ hf)
    | _ => cases hfe
  conv => rhs; rw [← List.takeWhile_append_dropWhile (p := (!·.isJournal topic)) (l := facts)]
  rw [List.filterMap_append, List.filter_append, hnone, List.nil_append]

/-- **The indices declared are those of all entries of the topic**, ascending. -/
theorem declaredIndices_of_founded {topic : String} {facts : List Fact} (h : Founded topic facts) :
    (declaredIndices topic facts).Pairwise (· < ·) ∧
    ∀ n, n ∈ declaredIndices topic facts ↔ n ∈ indicesOf topic (facts.filterMap declaredIndex?) := by
  obtain ⟨hp, hm⟩ := foldl_insertIndex (((facts.filterMap declaredIndex?).filter (·.1 == topic)).map Prod.snd) [] .nil
  rw [declaredIndices_eq, indices_dropWhile h]
  refine ⟨hp, fun n => ?_⟩
  rw [hm, indicesOf, List.mem_toFinset]
  exact or_iff_left List.not_mem_nil

/-! ## What is not used -/

theorem mem_iff_mem_filterMap {β : Type} {use : β → Fact} {use? : Fact → Option β}
    (h : ∀ f b, use? f = some b ↔ f = use b) (facts : List Fact) (b : β) :
    use b ∈ facts ↔ b ∈ facts.filterMap use? := by
  rw [List.mem_filterMap]
  constructor
  · intro hm
    exact ⟨use b, hm, (h _ b).2 rfl⟩
  · rintro ⟨f, hf, hb⟩
    exact (h f b).1 hb ▸ hf

theorem usedScript?_eq_some (f : Fact) (id : String) : usedScript? f = some id ↔ f = usesScript id := by
  cases f <;> simp [usedScript?]

theorem usedEnchantment?_eq_some (f : Fact) (id : String) : usedEnchantment? f = some id ↔ f = usesEnchantment id := by
  cases f <;> simp [usedEnchantment?]

theorem usedObject?_eq_some (f : Fact) (id : String) : usedObject? f = some id ↔ f = usesObject id := by
  cases f <;> simp [usedObject?]

theorem usedIndex?_eq_some (f : Fact) (e : String × Int) : usedIndex? f = some e ↔ f = usesIndex e.1 e.2 := by
  cases f <;> simp [usedIndex?, Prod.ext_iff]

/-- **What of a catalog is not used** is what of its entries is missing, each shown as the last of them says. -/
theorem unused_eq {β : Type} {use : String → Fact} {use? : Fact → Option String}
    (h : ∀ f id, use? f = some id ↔ f = use id) (facts : List Fact) (declared : List (String × β)) (d : β) :
    unused facts use (Catalog.ofEntries declared) =
      (missing declared (facts.filterMap use?)).map fun id => (id, (latest declared id).getD d) := by
  have hmissing : missing declared (facts.filterMap use?) =
      (Catalog.keys (Catalog.ofEntries declared)).filter fun id => !facts.contains (use id) := by
    refine sort_eq_of_pairwise_lt ((Catalog.ascending_ofEntries declared).filter _) fun id => ?_
    rw [Finset.mem_sdiff, List.mem_toFinset, List.mem_toFinset, List.mem_filter, Catalog.mem_keys_ofEntries,
      ← mem_iff_mem_filterMap h]
    simp
  rw [unused, Catalog.filter_eq_map (Catalog.ascending_ofEntries declared) (fun id => !facts.contains (use id)) d,
    hmissing]
  refine List.map_congr_left fun id _ => ?_
  rw [Catalog.get?_ofEntries, latest]

theorem any_usesTopic (topic : String) (facts : List Fact) :
    facts.any (·.usesTopic topic) = (facts.filterMap usedIndex?).any (·.1 == topic) := by
  rw [List.any_filterMap]
  refine congrArg facts.any (funext fun f => ?_)
  cases f <;> rfl

theorem journalFindings_eq {facts : List Fact} {topic : String} (h : Founded topic facts) (written : String) :
    journalFindings facts topic written =
      journal topic written (facts.filterMap declaredIndex?) (facts.filterMap usedIndex?) := by
  obtain ⟨hp, hm⟩ := declaredIndices_of_founded h
  have hsort : (indicesOf topic (facts.filterMap declaredIndex?) \ indicesOf topic (facts.filterMap usedIndex?)).sort =
      (declaredIndices topic facts).filter fun n => !facts.contains (.usesIndex topic n) := by
    refine sort_eq_of_pairwise_lt (hp.filter _) fun n => ?_
    have huse := mem_iff_mem_filterMap usedIndex?_eq_some facts (topic, n)
    rw [Finset.mem_sdiff, List.mem_filter, hm, indicesOf, indicesOf, List.mem_toFinset, List.mem_toFinset]
    simp [huse]
  unfold journalFindings journal
  rw [any_usesTopic, hsort]

theorem journals_eq {facts : List Fact} (h : ∀ topic, Founded topic facts) :
    ((declaredJournals facts).flatMap fun e => journalFindings facts e.1 e.2) =
      (missing (facts.filterMap declaredJournal?) []).flatMap fun topic =>
        journal topic (((facts.filterMap declaredJournal?).lookup topic).getD "") (facts.filterMap declaredIndex?)
          (facts.filterMap usedIndex?) := by
  have hascending := Catalog.ascending_ofFirstEntries (facts.filterMap declaredJournal?)
  have hmissing : missing (facts.filterMap declaredJournal?) [] = Catalog.keys (declaredJournals facts) := by
    rw [declaredJournals_eq]
    refine sort_eq_of_pairwise_lt hascending fun topic => ?_
    rw [List.toFinset_nil, Finset.sdiff_empty, List.mem_toFinset, Catalog.mem_keys_ofFirstEntries]
  rw [← declaredJournals_eq] at hascending
  rw [hmissing]
  conv => lhs; rw [Catalog.eq_map hascending "", List.flatMap_map]
  refine List.flatMap_congr fun topic _ => ?_
  rw [journalFindings_eq (h topic), declaredJournals_eq, Catalog.get?_ofFirstEntries]

/-- **The orphans among the facts of files are the balance of their ledger.** -/
theorem orphans_ofFiles {mode : Option Mode} (h : mode ≠ some .td) (files : List RecordFile) :
    orphans (ofFiles mode files) = balance files := by
  unfold orphans balance
  rw [declaredScripts_eq, declaredEnchantments_eq, declaredObjects_eq,
    journals_eq fun topic => founded_ofFiles h topic files, unused_eq usedScript?_eq_some _ _ "",
    unused_eq usedEnchantment?_eq_some _ _ "", unused_eq usedObject?_eq_some _ _ (.other, ""), scripts_declared h,
    enchantments_declared h, objects_declared h, journals_declared h, indices_declared h, scripts_used h,
    enchantments_used h, objects_used h, indices_used h,
    List.map_map, List.map_map, List.map_map]
  rfl

/-! ## The report -/

/-- **The rule reports declared less used.**  Over any files, unless in the mode whose records declare nothing, a run of
the rule alone ends well, and its report is the balance of the ledger. -/
theorem reports_balance (settings : Settings) (files : List RecordFile) (h : settings.mode ≠ some .td) :
    (Run.of settings [reachability] files).outcome = .ok (balance files) := by
  rw [outcome_reachability, orphans_ofFiles h]

/-- Every kind of declaration with a use and without one.  Used are scripts by a field, by a start record and by a line,
enchantments by a book and by a piece of clothing, objects by a reference, an inventory, a list and a line, and an index
by a line; a blank field and a deleted reference use nothing, and the entry that names a journal has no index. -/
theorem reports_unused_index :
    let base : RecordFile := ⟨"base.json", [
      .script { id := "Main", text := "Journal q 10\nStartScript \"Trap\"\nPlaceAtMe Elf" },
      .script { id := "Trap" }, .script { id := "Rob" }, .script { id := "Run" }, .script { id := " " },
      .startScript { id := "1", script := some "RUN" },
      .enchantment { id := "Fire" }, .enchantment { id := "Frost" }, .enchantment { id := "Shock" },
      .object .clothing { id := "Ring", script := some " ", enchanting := some "FIRE" },
      .book { id := "Tome", enchanting := some "frost" },
      .actor .npc { id := "Elf", script := some "rob", inventory := [⟨1, "TOME"⟩] },
      .levelled .item { id := "Bag", entries := [⟨"ring", 1⟩] }]⟩
    let patch : RecordFile := ⟨"patch.json", [
      .dialogue { id := "Q", type := .journal }, .info { id := "0", questState := some .name },
      .info { id := "1", data := { disposition := 20 } }, .info { id := "2", data := { disposition := 10 } },
      .dialogue { id := "R", type := .journal }, .info { id := "3", data := { disposition := 10 } },
      .object .weapon { id := "Axe" }, .object .static { id := "Rock" },
      .cell { references := [{ id := "axe", deleted := some true }, { id := "ROCK", deleted := some false }] }]⟩
    (({} : Settings).mode ≠ some .td) ∧
    (Run.of {} [reachability] [base, patch]).outcome = .ok (balance [base, patch]) ∧
    balance [base, patch] = [⟨"Script", " ", "is never started"⟩, ⟨"Script", "Main", "is never started"⟩,
      ⟨"Enchantment", "Shock", "is not used"⟩, ⟨"Weapon", "Axe", "is not used"⟩, ⟨"LevelledItem", "Bag", "is not used"⟩,
      ⟨"Journal", "Q", "has unused index 20"⟩, ⟨"Journal", "R", "is not used"⟩] := by
  intro base patch
  have hmode : ({} : Settings).mode ≠ some .td := by decide
  refine ⟨hmode, reports_balance {} [base, patch] hmode, ?_⟩
  rw [← orphans_ofFiles hmode [base, patch]]
  decide +kernel

end Rules
end WorldAudit
