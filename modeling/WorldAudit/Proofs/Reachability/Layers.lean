import Mathlib
import WorldAudit.Proofs.Reachability.Orphans
/-!
# Layers — the order of the files does not matter

A later file overrides an earlier one only in how a declaration is shown.  What a report tells of is a list of orphans
(`tells_balance`) that is read off sets of declarations and uses, so any order of the files gives the same list.  Where
every id is declared in one way, the reports themselves are the same.
-/
namespace WorldAudit
namespace Rules

open Ledger Rules.Fact

/-! ## Orphans -/

/-- Something declared that nothing uses, by its id in lower case. -/
inductive Orphan where
  | script (id : String)
  | enchantment (id : String)
  | object (id : String)
  | journal (topic : String)
  | index (topic : String) (n : Int)
deriving Repr, DecidableEq

/-- The orphan that a finding tells of, however it is spelt and of whatever kind it is shown. -/
inductive Tells : Finding → Orphan → Prop
  | script (written : String) : Tells ⟨"Script", written, "is never started"⟩ (.script (Text.lower written))
  | enchantment (written : String) : Tells ⟨"Enchantment", written, "is not used"⟩ (.enchantment (Text.lower written))
  | object {kind : Kind} (h : kind.isPlaceable = true) (written : String) :
      Tells ⟨kind.name, written, "is not used"⟩ (.object (Text.lower written))
  | journal (written : String) : Tells ⟨"Journal", written, "is not used"⟩ (.journal (Text.lower written))
  | index (written : String) (n : Int) :
      Tells ⟨"Journal", written, s!"has unused index {n}"⟩ (.index (Text.lower written) n)

theorem name_of_isPlaceable {kind : Kind} (h : kind.isPlaceable = true) :
    kind.name ≠ "Script" ∧ kind.name ≠ "Enchantment" ∧ kind.name ≠ "Journal" := by
  cases kind with
  | levelled list => cases list <;> decide
  | actor actor => cases actor <;> decide
  | object object => cases object <;> decide
  | book => decide
  | _ => cases h

theorem unusedIndex_ne (n : Int) : s!"has unused index {n}" ≠ "is not used" := by
  intro h
  have hhead : (s!"has unused index {n}").toList.head? = some 'i' := by rw [h]; decide
  rw [String.toList_append] at hhead
  exact absurd hhead (by simp [toString])

theorem unusedIndex_inj {n m : Int} (h : s!"has unused index {n}" = s!"has unused index {m}") : n = m :=
  Int.repr_inj.1 ((String.append_right_inj _).1 h)

theorem Tells.unique {f : Finding} {o o' : Orphan} (h : Tells f o) (h' : Tells f o') : o = o' := by
  generalize hf : f = f' at h'
  cases h <;> cases h' <;> grind [name_of_isPlaceable, unusedIndex_ne, unusedIndex_inj]

/-- Findings that tell of the same orphans one by one tell of the same set. -/
theorem setOf_tells {fs : List Finding} {os : List Orphan} (h : List.Forall₂ Tells fs os) :
    {o | ∃ f ∈ fs, Tells f o} = {o | o ∈ os} := by
  induction h with
  | nil => simp
  | @cons f o fs os hf _ ih =>
    have hone : ∀ o', Tells f o' ↔ o' = o := fun o' => ⟨fun h' => h'.unique hf, fun e => e ▸ hf⟩
    ext o'
    have := Set.ext_iff.1 ih o'
    simp only [Set.mem_ofPred_eq, List.mem_cons, exists_eq_or_imp, hone] at this ⊢
    rw [this]

/-! ## What a balance tells of -/

def journalOrphans (declared used : List (String × Int)) (topic : String) : List Orphan :=
  if used.any (·.1 == topic) then (unusedIndices topic declared used).map (.index topic) else [.journal topic]

/-- The orphans of files, in the order of a report. -/
def orphansOf (files : List RecordFile) : List Orphan :=
  let rs := records files
  (missing (rs.filterMap script?) (rs.flatMap startedScripts)).map .script ++
  (missing (rs.filterMap enchantment?) (rs.flatMap usedEnchantments)).map .enchantment ++
  (missing (rs.filterMap object?) (rs.flatMap usedObjects)).map .object ++
  (missing (rs.filterMap journal?) []).flatMap (journalOrphans (entries files) (rs.flatMap usedIndices))

section Shown

variable {β : Type} {declared l : List (String × β)} {used : List String}

/-- What is missing is shown as one of its declarations says. -/
theorem lookup_of_mem_missing (hl : declared ⊆ l) {id : String} (h : id ∈ missing declared used) :
    ∃ v, l.lookup id = some v ∧ (id, v) ∈ l := by
  rw [missing, Finset.mem_sort, Finset.mem_sdiff, List.mem_toFinset, List.mem_map] at h
  obtain ⟨⟨⟨_, v⟩, hv, rfl⟩, _⟩ := h
  obtain ⟨w, hw⟩ := Option.isSome_iff_exists.1 (List.lookup_isSome_iff.2 ⟨_, hl hv, beq_self_eq_true _⟩)
  exact ⟨w, hw, Catalog.mem_of_lookup hw⟩

theorem tells_missing {d : β} (shape : β → Finding) (orphan : String → Orphan)
    (h : ∀ e ∈ declared, Tells (shape e.2) (orphan e.1)) :
    List.Forall₂ Tells ((missing declared used).map fun id => shape ((latest declared id).getD d))
      ((missing declared used).map orphan) := by
  rw [List.forall₂_map_left_iff, List.forall₂_map_right_iff, List.forall₂_same]
  intro id hid
  obtain ⟨v, hv, hm⟩ := lookup_of_mem_missing (fun _ => List.mem_reverse.2) hid
  rw [latest, hv]
  exact h _ (List.mem_reverse.1 hm)

end Shown

theorem eq_lower_of_declared {r : Record} {e : String × String}
    (h : script? r = some e ∨ enchantment? r = some e ∨ journal? r = some e) : e.1 = Text.lower e.2 := by
  cases r <;> grind [script?, enchantment?, journal?]

theorem object?_eq_some {r : Record} {e : String × Kind × String} (h : object? r = some e) :
    e.1 = Text.lower e.2.2 ∧ e.2.1.isPlaceable = true := by
  cases r with
  | levelled | actor | book | object => cases h; exact ⟨rfl, rfl⟩
  | _ => cases h

theorem tells_journal (written : String) (declared used : List (String × Int)) :
    List.Forall₂ Tells (journal (Text.lower written) written declared used)
      (journalOrphans declared used (Text.lower written)) := by
  unfold journal journalOrphans unusedIndices
  split
  · rw [List.forall₂_map_left_iff, List.forall₂_map_right_iff, List.forall₂_same]
    intro n _
    exact .index written n
  · exact .cons (.journal written) .nil

theorem tells_journals (files : List RecordFile) :
    List.Forall₂ Tells (journals files) ((missing ((records files).filterMap journal?) []).flatMap
      (journalOrphans (entries files) ((records files).flatMap usedIndices))) := by
  refine List.rel_flatMap (R := fun a b => a = b ∧ a ∈ missing ((records files).filterMap journal?) [])
    (List.forall₂_same.2 fun topic h => ⟨rfl, h⟩) ?_
  rintro topic _ ⟨rfl, htopic⟩
  obtain ⟨written, hw, hm⟩ := lookup_of_mem_missing (List.Subset.refl _) htopic
  obtain ⟨r, _, hr⟩ := List.mem_filterMap.1 hm
  have hid : topic = Text.lower written := eq_lower_of_declared (.inr (.inr hr))
  dsimp only
  rw [hw, hid]
  exact tells_journal written _ _

/-- **What the balance of files tells of**, finding by finding. -/
theorem tells_balance (files : List RecordFile) : List.Forall₂ Tells (balance files) (orphansOf files) := by
  have hscripts : List.Forall₂ Tells (scripts (records files)) _ :=
    tells_missing (fun w => ⟨"Script", w, "is never started"⟩) .script fun e he => by
      obtain ⟨r, _, hr⟩ := List.mem_filterMap.1 he
      exact eq_lower_of_declared (.inl hr) ▸ .script e.2
  have henchantments : List.Forall₂ Tells (enchantments (records files)) _ :=
    tells_missing (fun w => ⟨"Enchantment", w, "is not used"⟩) .enchantment fun e he => by
      obtain ⟨r, _, hr⟩ := List.mem_filterMap.1 he
      exact eq_lower_of_declared (.inr (.inl hr)) ▸ .enchantment e.2
  have hobjects : List.Forall₂ Tells (objects (records files)) _ :=
    tells_missing (fun w : Kind × String => ⟨w.1.name, w.2, "is not used"⟩) .object fun e he => by
      obtain ⟨r, _, hr⟩ := List.mem_filterMap.1 he
      obtain ⟨hid, hkind⟩ := object?_eq_some hr
      exact hid ▸ .object hkind e.2.2
  exact List.rel_append (List.rel_append (List.rel_append hscripts henchantments) hobjects) (tells_journals files)

/-! ## Another order -/

/-- Whatever is declared under an id is the same each time. -/
def Uniform {β : Type} (declared : List (String × β)) : Prop :=
  ∀ e ∈ declared, ∀ e' ∈ declared, e.1 = e'.1 → e.2 = e'.2

/-- Every id is declared in one spelling, and as one kind of object. -/
structure DeclaredAlike (files : List RecordFile) : Prop where
  scripts : Uniform ((records files).filterMap script?)
  enchantments : Uniform ((records files).filterMap enchantment?)
  objects : Uniform ((records files).filterMap object?)
  journals : Uniform ((records files).filterMap journal?)

section Perm

variable {β : Type} {declared declared' : List (String × β)} {used used' : List String}

theorem missing_perm (hd : declared.Perm declared') (hu : used.Perm used') :
    missing declared used = missing declared' used' := by
  rw [missing, missing, List.toFinset_eq_of_perm _ _ (hd.map Prod.fst), List.toFinset_eq_of_perm _ _ hu]

theorem lookup_perm (hd : declared.Perm declared') (h : Uniform declared) (id : String) :
    declared.lookup id = declared'.lookup id := by
  cases hl : declared.lookup id with
  | some v =>
    have hv := Catalog.mem_of_lookup hl
    obtain ⟨w, hw⟩ := Option.isSome_iff_exists.1
      (List.lookup_isSome_iff.2 ⟨_, hd.mem_iff.1 hv, beq_self_eq_true id⟩)
    have heq : v = w := h (id, v) hv (id, w) (hd.mem_iff.2 (Catalog.mem_of_lookup hw)) rfl
    rw [hw, heq]
  | none =>
    refine (List.lookup_eq_none_iff.2 fun p hp => ?_).symm
    exact List.lookup_eq_none_iff.1 hl p (hd.mem_iff.2 hp)

theorem latest_perm (hd : declared.Perm declared') (h : Uniform declared) (id : String) :
    latest declared id = latest declared' id := by
  have hreverse : declared.reverse.Perm declared'.reverse :=
    (List.reverse_perm _).trans (hd.trans (List.reverse_perm _).symm)
  refine lookup_perm hreverse (fun e he e' he' => ?_) id
  exact h e (List.mem_reverse.1 he) e' (List.mem_reverse.1 he')

theorem map_missing_perm (hd : declared.Perm declared') (hu : used.Perm used') (h : Uniform declared) (d : β)
    (shape : β → Finding) :
    ((missing declared used).map fun id => shape ((latest declared id).getD d)) =
      (missing declared' used').map fun id => shape ((latest declared' id).getD d) := by
  rw [missing_perm hd hu, funext (latest_perm hd h)]

theorem indicesOf_perm {is is' : List (String × Int)} (h : is.Perm is') (topic : String) :
    indicesOf topic is = indicesOf topic is' :=
  List.toFinset_eq_of_perm _ _ ((h.filter _).map _)

end Perm

section Files

variable {files files' : List RecordFile} (h : files.Perm files')

include h

theorem records_perm : (records files).Perm (records files') := h.flatMap_right _

theorem entries_perm : (entries files).Perm (entries files') := h.flatMap_right _

theorem journalOrphans_perm (topic : String) :
    journalOrphans (entries files) ((records files).flatMap usedIndices) topic =
      journalOrphans (entries files') ((records files').flatMap usedIndices) topic := by
  have hused := (records_perm h).flatMap_right usedIndices
  unfold journalOrphans unusedIndices
  rw [hused.any_eq, indicesOf_perm (entries_perm h), indicesOf_perm hused]

theorem journal_perm (topic written : String) :
    journal topic written (entries files) ((records files).flatMap usedIndices) =
      journal topic written (entries files') ((records files').flatMap usedIndices) := by
  have hused := (records_perm h).flatMap_right usedIndices
  unfold journal
  rw [hused.any_eq, indicesOf_perm (entries_perm h), indicesOf_perm hused]

/-- **The orphans are those of the set of files.** -/
theorem orphansOf_perm : orphansOf files = orphansOf files' := by
  have hr := records_perm h
  unfold orphansOf
  dsimp only
  rw [missing_perm (hr.filterMap script?) (hr.flatMap_right startedScripts),
    missing_perm (hr.filterMap enchantment?) (hr.flatMap_right usedEnchantments),
    missing_perm (hr.filterMap object?) (hr.flatMap_right usedObjects),
    missing_perm (hr.filterMap journal?) (List.Perm.refl []), funext (journalOrphans_perm h)]

theorem journals_perm (halike : Uniform ((records files).filterMap journal?)) : journals files = journals files' := by
  have hdeclared := (records_perm h).filterMap journal?
  unfold journals
  dsimp only
  rw [missing_perm hdeclared (List.Perm.refl [])]
  refine List.flatMap_congr fun topic _ => ?_
  rw [lookup_perm hdeclared halike, journal_perm h]

/-- **Where every id is declared in one way, the balance is that of the set of files.** -/
theorem balance_perm (halike : DeclaredAlike files) : balance files = balance files' := by
  have hr := records_perm h
  have hscripts : scripts (records files) = scripts (records files') :=
    map_missing_perm (hr.filterMap _) (hr.flatMap_right _) halike.scripts "" fun w => ⟨"Script", w, "is never started"⟩
  have henchantments : enchantments (records files) = enchantments (records files') :=
    map_missing_perm (hr.filterMap _) (hr.flatMap_right _) halike.enchantments ""
      fun w => ⟨"Enchantment", w, "is not used"⟩
  have hobjects : objects (records files) = objects (records files') :=
    map_missing_perm (hr.filterMap _) (hr.flatMap_right _) halike.objects (.other, "")
      fun w => ⟨w.1.name, w.2, "is not used"⟩
  unfold balance
  rw [hscripts, henchantments, hobjects, journals_perm h halike.journals]

end Files

/-! ## The report -/

/-- Where records declare nothing there are no orphans. -/
theorem orphans_ofFiles_td (files : List RecordFile) : orphans (ofFiles (some .td) files) = [] := by
  have hnone : ∀ f ∈ ofFiles (some .td) files, declaredScript? f = none ∧ declaredEnchantment? f = none ∧
      declaredObject? f = none ∧ declaredJournal? f = none := by
    intro f hf
    obtain ⟨file, _, hf⟩ := List.mem_flatMap.1 hf
    obtain ⟨p, _, hf⟩ := List.mem_flatMap.1 hf
    obtain ⟨call, _, hf⟩ := List.mem_flatMap.1 hf
    exact declares_nothing call f hf
  unfold orphans
  rw [declaredScripts_eq, declaredEnchantments_eq, declaredObjects_eq, declaredJournals_eq,
    List.filterMap_eq_nil_iff.2 fun f hf => (hnone f hf).1,
    List.filterMap_eq_nil_iff.2 fun f hf => (hnone f hf).2.1,
    List.filterMap_eq_nil_iff.2 fun f hf => (hnone f hf).2.2.1,
    List.filterMap_eq_nil_iff.2 fun f hf => (hnone f hf).2.2.2]
  rfl

/-- **The order of the files does not matter to what is reported.** -/
theorem layers_in_any_order {files files' : List RecordFile} (h : files.Perm files') (settings : Settings) :
    ∃ report report', (Run.of settings [reachability] files).outcome = .ok report ∧
      (Run.of settings [reachability] files').outcome = .ok report' ∧
      (∃ os, List.Forall₂ Tells report os ∧ List.Forall₂ Tells report' os) ∧
      {o | ∃ f ∈ report, Tells f o} = {o | ∃ f ∈ report', Tells f o} ∧
      (DeclaredAlike files → report = report') := by
  by_cases hmode : settings.mode = some .td
  · refine ⟨[], [], ?_, ?_, ⟨[], .nil, .nil⟩, rfl, fun _ => rfl⟩
    · rw [outcome_reachability, hmode, orphans_ofFiles_td]
    · rw [outcome_reachability, hmode, orphans_ofFiles_td]
  · have ht := tells_balance files
    have ht' : List.Forall₂ Tells (balance files') (orphansOf files) := orphansOf_perm h ▸ tells_balance files'
    refine ⟨balance files, balance files', ?_, ?_, ⟨_, ht, ht'⟩, ?_, balance_perm h⟩
    · rw [outcome_reachability, orphans_ofFiles hmode]
    · rw [outcome_reachability, orphans_ofFiles hmode]
    · rw [setOf_tells ht, setOf_tells ht']

/-- A journal of the one file, and the script of the other that uses an index it does not have. -/
theorem journal_and_script_swapped :
    let base : RecordFile := ⟨"base.json", [.dialogue { id := "Q", type := .journal },
      .info { id := "1", data := { disposition := 20 } }]⟩
    let patch : RecordFile := ⟨"patch.json", [.script { id := "S", text := "Journal q 10" }]⟩
    let report : List Finding := [⟨"Script", "S", "is never started"⟩, ⟨"Journal", "Q", "has unused index 20"⟩]
    [base, patch].Perm [patch, base] ∧ DeclaredAlike [base, patch] ∧
    (Run.of {} [reachability] [base, patch]).outcome = .ok report ∧
    (Run.of {} [reachability] [patch, base]).outcome = .ok report := by
  intro base patch report
  have hperm : [base, patch].Perm [patch, base] := .swap patch base []
  have halike : DeclaredAlike [base, patch] := by
    constructor <;> unfold Uniform <;> decide +kernel
  have hbase : (Run.of {} [reachability] [base, patch]).outcome = .ok report := by
    rw [outcome_reachability]
    refine congrArg Except.ok ?_
    decide +kernel
  obtain ⟨r, r', hr, hr', _, _, heq⟩ := layers_in_any_order hperm {}
  refine ⟨hperm, halike, hbase, ?_⟩
  rw [hr', ← heq halike, ← hr, hbase]

end Rules
end WorldAudit
