import Mathlib.Data.List.Basic
import WorldAudit.Proofs.Catalog
import WorldAudit.Proofs.Reachability.Gathering
/-!
# Facts — the facts of files are the entries of the ledger

What a run gathers record by record and call by call is, kind by kind, what the ledger reads off the records
(`ofRecord_eq`).  A journal entry is always gathered after the journal that it belongs to (`founded_ofFiles`).
-/
namespace WorldAudit
namespace Rules
namespace Fact

open Ledger

/-! ## The facts of a record -/

theorem flatMap_scriptLines (mode : Option Mode) (owner : Record) (topic : Option Dialogue) (lines : List Script.Line) :
    (lines.map fun line => Call.scriptLine owner line topic).flatMap (ofCall mode) =
      (lines.filterMap fun line => Script.command? line.code).map ofCommand := by
  rw [List.flatMap_map, List.map_filterMap, List.filterMap_eq_flatMap_toList]
  rfl

theorem flatMap_live (references : List Reference) :
    (references.flatMap fun r => if r.isDeleted then [] else [usesObject (Text.lower r.id)]) =
      ((references.filter (·.deleted != some true)).map (·.id)).map fun id => usesObject (Text.lower id) := by
  induction references with
  | nil => rfl
  | cons r references ih =>
    rw [List.flatMap_cons, List.filter_cons, ih, Reference.isDeleted]
    rcases r.deleted with _ | _ | _ <;> rfl

theorem flatMap_pure {α : Type} (f : α → String) (l : List α) :
    (l.flatMap fun a => [usesObject (Text.lower (f a))]) = (l.map f).map fun id => usesObject (Text.lower id) := by
  rw [List.map_map, List.map_eq_flatMap]
  rfl

theorem ofInfo_eq (info : Info) (topic : Option Dialogue) :
    ofInfo info topic = (entryIndex? topic (.info info)).toList.map fun e => declaresIndex e.1 e.2 := by
  cases topic with
  | none => rfl
  | some d =>
    have hentry : entryIndex? (some d) (.info info) =
        if d.isJournal && info.questState != some .name then some (Text.lower d.id, info.data.disposition) else none :=
      rfl
    rw [hentry, ofInfo]
    cases d.isJournal && info.questState != some .name <;> rfl

theorem commands_info (info : Info) :
    commands (.info info) = (Script.lines (info.result.getD "")).filterMap fun line => Script.command? line.code := by
  rw [commands, show body? (.info info) = info.result from rfl]
  cases info.result with
  | none => rfl
  | some text => rw [Option.toList_some, List.flatMap_singleton]; rfl

/-! The ledger reads the same fields as the records themselves. -/

theorem nonBlank?_eq (value : Option String) : Record.nonBlank? value = value.filter isFilled := by
  refine congrArg (Option.filter · value) (funext fun s => ?_)
  rw [isFilled, Text.allBlank, List.not_all_eq_any_not]

theorem script?_eq (record : Record) : record.script? = attached? record := by
  cases record with
  | startScript | actor | book | object => exact nonBlank?_eq _
  | _ => rfl

theorem enchanting?_eq (record : Record) : record.enchanting? = enchanting? record := by
  cases record with
  | book | object => exact nonBlank?_eq _
  | _ => rfl

/-- **The facts of a record**: what it declares, what it uses by its fields, what it holds, its index as a journal
entry, and what its lines use. -/
theorem ofRecord_eq {mode : Option Mode} (h : mode ≠ some .td) (topic : Option Dialogue) (record : Record) :
    ofRecord mode topic record =
      (ofDeclaration record (Text.lower record.id) ++ ofAttachments record) ++
      ((held record).map (fun id => usesObject (Text.lower id)) ++
        ((entryIndex? topic record).toList.map (fun e => declaresIndex e.1 e.2) ++
          (commands record).map ofCommand)) := by
  have hmode : (mode == some .td) = false := by simpa using h
  have hrecord : ofCall mode (.record record (Text.lower record.id)) =
      ofDeclaration record (Text.lower record.id) ++ ofAttachments record := by
    rw [ofCall, hmode, if_neg Bool.false_ne_true]
  rw [ofRecord, Protocol.callsOf, List.flatMap_cons, hrecord]
  refine congrArg (ofDeclaration record (Text.lower record.id) ++ ofAttachments record ++ ·) ?_
  -- every kind of record says one thing more at the most, and the other two are empty
  cases record with
  | cell cell =>
    have hrefs : (Protocol.innerCalls topic (.cell cell)).flatMap (ofCall mode) =
        cell.references.flatMap fun r => if r.isDeleted then [] else [usesObject (Text.lower r.id)] :=
      flatMap_zipIdx_map (by intro _; rfl) _
    rw [hrefs, flatMap_live]
    exact (List.append_nil _).symm
  | levelled k list =>
    have hentries : (Protocol.innerCalls topic (.levelled k list)).flatMap (ofCall mode) =
        list.entries.flatMap fun e => [usesObject (Text.lower e.id)] := flatMap_zipIdx_map (by intro _; rfl) _
    rw [hentries, flatMap_pure]
    exact (List.append_nil _).symm
  | actor k actor =>
    have hentries : (Protocol.innerCalls topic (.actor k actor)).flatMap (ofCall mode) =
        actor.inventory.flatMap fun e => [usesObject (Text.lower e.id)] := flatMap_zipIdx_map (by intro _; rfl) _
    rw [hentries, flatMap_pure]
    exact (List.append_nil _).symm
  | info info =>
    rw [Protocol.innerCalls, List.flatMap_cons, flatMap_scriptLines]
    show ofInfo info topic ++ _ = _
    rw [ofInfo_eq, commands_info]
    rfl
  | script script =>
    rw [Protocol.innerCalls, flatMap_scriptLines, commands, body?, Option.toList_some, List.flatMap_singleton]
    rfl
  | _ => rfl

/-! ## Kind by kind -/

def declaredScript? : Fact → Option (String × String)
  | declaresScript id written => some (id, written)
  | _ => none

def declaredEnchantment? : Fact → Option (String × String)
  | declaresEnchantment id written => some (id, written)
  | _ => none

def declaredObject? : Fact → Option (String × Kind × String)
  | declaresObject id kind written => some (id, kind, written)
  | _ => none

def declaredJournal? : Fact → Option (String × String)
  | declaresJournal id written => some (id, written)
  | _ => none

def declaredIndex? : Fact → Option (String × Int)
  | declaresIndex topic index => some (topic, index)
  | _ => none

def usedScript? : Fact → Option String
  | usesScript id => some id
  | _ => none

def usedEnchantment? : Fact → Option String
  | usesEnchantment id => some id
  | _ => none

def usedObject? : Fact → Option String
  | usesObject id => some id
  | _ => none

def usedIndex? : Fact → Option (String × Int)
  | usesIndex topic index => some (topic, index)
  | _ => none

/-- Where records declare nothing, nothing is declared at all. -/
theorem declares_nothing (call : Call) : ∀ f ∈ ofCall (some .td) call,
    declaredScript? f = none ∧ declaredEnchantment? f = none ∧ declaredObject? f = none ∧
      declaredJournal? f = none := by
  intro f hf
  cases call with
  | record => simp [ofCall] at hf
  | reference =>
    simp only [ofCall, List.mem_ite_nil_left, List.mem_singleton] at hf
    exact hf.2 ▸ ⟨rfl, rfl, rfl, rfl⟩
  | levelledEntry => exact List.mem_singleton.1 hf ▸ ⟨rfl, rfl, rfl, rfl⟩
  | inventoryEntry => exact List.mem_singleton.1 hf ▸ ⟨rfl, rfl, rfl, rfl⟩
  | info info topic =>
    rw [ofCall, ofInfo_eq] at hf
    obtain ⟨e, _, rfl⟩ := List.mem_map.1 hf
    exact ⟨rfl, rfl, rfl, rfl⟩
  | scriptLine =>
    obtain ⟨command, _, rfl⟩ := Option.map_eq_some_iff.1 (Option.mem_toList.1 hf)
    cases command <;> exact ⟨rfl, rfl, rfl, rfl⟩
  | finish => cases hf

theorem ofDeclaration_eq (record : Record) :
    ofDeclaration record (Text.lower record.id) =
      (script? record).toList.map (fun e => declaresScript e.1 e.2) ++
      (enchantment? record).toList.map (fun e => declaresEnchantment e.1 e.2) ++
      (object? record).toList.map (fun e => declaresObject e.1 e.2.1 e.2.2) ++
      (journal? record).toList.map (fun e => declaresJournal e.1 e.2) := by
  cases record with
  | dialogue d =>
    have hjournal : journal? (.dialogue d) = if d.isJournal then some (Text.lower d.id, d.id) else none := rfl
    rw [hjournal, ofDeclaration]
    cases d.isJournal <;> rfl
  | _ => rfl

section Kinds

variable {α : Type} {mode : Option Mode}

theorem filterMap_ofRecord (h : mode ≠ some .td) (kind? : Fact → Option α) (topic : Option Dialogue) (record : Record) :
    (ofRecord mode topic record).filterMap kind? =
      (script? record).toList.filterMap (fun e => kind? (declaresScript e.1 e.2)) ++
      (enchantment? record).toList.filterMap (fun e => kind? (declaresEnchantment e.1 e.2)) ++
      (object? record).toList.filterMap (fun e => kind? (declaresObject e.1 e.2.1 e.2.2)) ++
      (journal? record).toList.filterMap (fun e => kind? (declaresJournal e.1 e.2)) ++
      ((attached? record).map Text.lower).toList.filterMap (fun id => kind? (usesScript id)) ++
      ((enchanting? record).map Text.lower).toList.filterMap (fun id => kind? (usesEnchantment id)) ++
      ((held record).map Text.lower).filterMap (fun id => kind? (usesObject id)) ++
      (entryIndex? topic record).toList.filterMap (fun e => kind? (declaresIndex e.1 e.2)) ++
      (commands record).filterMap (fun c => kind? (ofCommand c)) := by
  have hfields : ofAttachments record = ((attached? record).map Text.lower).toList.map usesScript ++
      ((enchanting? record).map Text.lower).toList.map usesEnchantment := by
    rw [ofAttachments, script?_eq, enchanting?_eq]
    cases attached? record <;> cases enchanting? record <;> rfl
  rw [ofRecord_eq h, ofDeclaration_eq, hfields]
  simp only [List.filterMap_append, List.filterMap_map, List.append_assoc]
  rfl

theorem filterMap_ofFiles {kind? : Fact → Option α} {found : Option Dialogue → Record → List α}
    (h : ∀ topic record, (ofRecord mode topic record).filterMap kind? = found topic record) (files : List RecordFile) :
    (ofFiles mode files).filterMap kind? = files.flatMap fun file =>
      file.records.zipIdx.flatMap fun (record, j) => found (Protocol.topicAt file.records j) record := by
  unfold ofFiles ofFile
  simp only [List.filterMap_flatMap, h]

theorem filterMap_ofFiles_records {kind? : Fact → Option α} {found : Record → List α}
    (h : ∀ topic record, (ofRecord mode topic record).filterMap kind? = found record) (files : List RecordFile) :
    (ofFiles mode files).filterMap kind? = (records files).flatMap found := by
  rw [filterMap_ofFiles h, records, List.flatMap_assoc]
  refine congrArg (List.flatMap · files) (funext fun file => ?_)
  conv => rhs; rw [← List.zipIdx_map_fst 0 file.records, List.flatMap_map]

end Kinds

section Files

variable {mode : Option Mode} (h : mode ≠ some .td) (files : List RecordFile)

include h

theorem scripts_declared : (ofFiles mode files).filterMap declaredScript? = (records files).filterMap script? := by
  have hcommand : (fun c => declaredScript? (ofCommand c)) = fun _ => none := by funext c; cases c <;> rfl
  rw [List.filterMap_eq_flatMap_toList script?]
  refine filterMap_ofFiles_records (fun topic record => ?_) files
  rw [filterMap_ofRecord h, hcommand]
  simp [declaredScript?]

theorem enchantments_declared :
    (ofFiles mode files).filterMap declaredEnchantment? = (records files).filterMap enchantment? := by
  have hcommand : (fun c => declaredEnchantment? (ofCommand c)) = fun _ => none := by funext c; cases c <;> rfl
  rw [List.filterMap_eq_flatMap_toList enchantment?]
  refine filterMap_ofFiles_records (fun topic record => ?_) files
  rw [filterMap_ofRecord h, hcommand]
  simp [declaredEnchantment?]

theorem objects_declared : (ofFiles mode files).filterMap declaredObject? = (records files).filterMap object? := by
  have hcommand : (fun c => declaredObject? (ofCommand c)) = fun _ => none := by funext c; cases c <;> rfl
  rw [List.filterMap_eq_flatMap_toList object?]
  refine filterMap_ofFiles_records (fun topic record => ?_) files
  rw [filterMap_ofRecord h, hcommand]
  simp [declaredObject?]

theorem journals_declared : (ofFiles mode files).filterMap declaredJournal? = (records files).filterMap journal? := by
  have hcommand : (fun c => declaredJournal? (ofCommand c)) = fun _ => none := by funext c; cases c <;> rfl
  rw [List.filterMap_eq_flatMap_toList journal?]
  refine filterMap_ofFiles_records (fun topic record => ?_) files
  rw [filterMap_ofRecord h, hcommand]
  simp [declaredJournal?]

omit files in
theorem indices_ofRecord (topic : Option Dialogue) (record : Record) :
    (ofRecord mode topic record).filterMap declaredIndex? = (entryIndex? topic record).toList := by
  have hcommand : (fun c => declaredIndex? (ofCommand c)) = fun _ => none := by funext c; cases c <;> rfl
  rw [filterMap_ofRecord h, hcommand]
  simp [declaredIndex?]

theorem indices_declared : (ofFiles mode files).filterMap declaredIndex? = entries files := by
  rw [filterMap_ofFiles (indices_ofRecord h)]
  unfold entries
  simp only [List.filterMap_eq_flatMap_toList]

theorem scripts_used : (ofFiles mode files).filterMap usedScript? = (records files).flatMap startedScripts := by
  have hcommand : (fun c => usedScript? (ofCommand c)) = started? := by funext c; cases c <;> rfl
  refine filterMap_ofFiles_records (fun topic record => ?_) files
  rw [filterMap_ofRecord h, hcommand]
  simp [usedScript?, startedScripts]

theorem enchantments_used :
    (ofFiles mode files).filterMap usedEnchantment? = (records files).flatMap usedEnchantments := by
  have hcommand : (fun c => usedEnchantment? (ofCommand c)) = fun _ => none := by funext c; cases c <;> rfl
  refine filterMap_ofFiles_records (fun topic record => ?_) files
  rw [filterMap_ofRecord h, hcommand]
  simp [usedEnchantment?, usedEnchantments]

theorem objects_used : (ofFiles mode files).filterMap usedObject? = (records files).flatMap usedObjects := by
  have hcommand : (fun c => usedObject? (ofCommand c)) = placed? := by funext c; cases c <;> rfl
  refine filterMap_ofFiles_records (fun topic record => ?_) files
  rw [filterMap_ofRecord h, hcommand]
  simp [usedObject?, usedObjects]

theorem indices_used : (ofFiles mode files).filterMap usedIndex? = (records files).flatMap usedIndices := by
  have hcommand : (fun c => usedIndex? (ofCommand c)) = indexed? := by funext c; cases c <;> rfl
  refine filterMap_ofFiles_records (fun topic record => ?_) files
  rw [filterMap_ofRecord h, hcommand]
  simp [usedIndex?, usedIndices]

end Files

/-! ## Journals come before their entries -/

section Journals

/-- No index of the topic is declared before the topic is. -/
def Founded (topic : String) (facts : List Fact) : Prop :=
  ∀ n, declaresIndex topic n ∉ facts.takeWhile (!·.isJournal topic)

/-- Facts stay founded when facts join in which an index comes before its journal only if an earlier fact declares that
already. -/
theorem Founded.append {topic : String} : ∀ {front back : List Fact}, Founded topic front →
    (∀ n, declaresIndex topic n ∈ back.takeWhile (!·.isJournal topic) → ∃ f ∈ front, f.isJournal topic = true) →
    Founded topic (front ++ back)
  | [], _, _, hback, n, hn => by
    obtain ⟨f, hf, _⟩ := hback n hn
    cases hf
  | f :: front, back, hfront, hback, n, hn => by
    rw [List.cons_append, List.takeWhile_cons] at hn
    cases hj : f.isJournal topic with
    | true => rw [hj] at hn; cases hn
    | false =>
      -- `f` stops neither list, and it is not the journal that an index of `back` needs
      have htake : (f :: front).takeWhile (!·.isJournal topic) = f :: front.takeWhile (!·.isJournal topic) := by
        rw [List.takeWhile_cons, hj]; rfl
      have hrest : Founded topic (front ++ back) := by
        refine Founded.append (fun n hn => hfront n (htake ▸ List.mem_cons_of_mem f hn)) fun n hn => ?_
        obtain ⟨f', hf', hj'⟩ := hback n hn
        rcases List.mem_cons.1 hf' with rfl | hf'
        · rw [hj] at hj'; cases hj'
        · exact ⟨f', hf', hj'⟩
      rw [hj] at hn
      rcases List.mem_cons.1 hn with rfl | hn
      · exact hfront n (htake ▸ List.mem_cons_self)
      · exact hrest n hn

theorem ofFile_concat (mode : Option Mode) (records : List Record) (record : Record) :
    ofFile mode (records ++ [record]) =
      ofFile mode records ++ ofRecord mode (Protocol.topicAt (records ++ [record]) records.length) record := by
  have hfront : ∀ p ∈ records.zipIdx, ofRecord mode (Protocol.topicAt (records ++ [record]) p.2) p.1 =
      ofRecord mode (Protocol.topicAt records p.2) p.1 := fun p hp => by
    have hlt : p.2 + 1 ≤ records.length := by
      have := List.snd_lt_of_mem_zipIdx hp
      omega
    rw [Protocol.topicAt, Protocol.topicAt, List.take_append_of_le_length hlt]
  rw [ofFile, ofFile, List.zipIdx_append, List.flatMap_append, List.flatMap_congr hfront, Nat.zero_add]
  exact congrArg (_ ++ ·) (List.flatMap_singleton ..)

variable {mode : Option Mode} (h : mode ≠ some .td)

include h

/-- A journal that has an entry is among the records before the entry. -/
theorem journal_of_index {records : List Record} {record : Record} {topic : String} {n : Int}
    (hm : declaresIndex topic n ∈ ofRecord mode (Protocol.topicAt (records ++ [record]) records.length) record) :
    ∃ d, .dialogue d ∈ records ∧ d.isJournal = true ∧ Text.lower d.id = topic := by
  have he : entryIndex? (Protocol.topicAt (records ++ [record]) records.length) record = some (topic, n) := by
    rw [← Option.mem_toList, ← indices_ofRecord h]
    exact List.mem_filterMap.2 ⟨_, hm, rfl⟩
  cases record with
  | info info =>
    -- the entry is no topic itself, so the latest topic stands before it
    have htopic : Protocol.topicAt (records ++ [.info info]) records.length =
        (records.filterMap Protocol.dialogue?).getLast? := by
      rw [Protocol.topicAt, List.take_of_length_le (by simp), List.filterMap_append]
      exact congrArg List.getLast? (List.append_nil _)
    rw [htopic] at he
    cases hlast : (records.filterMap Protocol.dialogue?).getLast? with
    | none => rw [hlast] at he; cases he
    | some d =>
      rw [hlast, entryIndex?] at he
      obtain ⟨record, hrecord, hd⟩ := List.mem_filterMap.1 (List.mem_of_getLast? hlast)
      cases record with
      | dialogue d' =>
        cases hd
        split at he
        · rename_i hj
          cases he
          exact ⟨d, hrecord, (Bool.and_eq_true_iff.1 hj).1, rfl⟩
        · cases he
      | _ => cases hd
  | _ => cases he

theorem exists_isJournal {records : List Record} {d : Dialogue} (hd : .dialogue d ∈ records) (hj : d.isJournal = true) :
    ∃ f ∈ ofFile mode records, f.isJournal (Text.lower d.id) = true := by
  have hjournals := journals_declared h [⟨"", records⟩]
  rw [ofFiles, Ledger.records, List.flatMap_singleton, List.flatMap_singleton] at hjournals
  have hm : (Text.lower d.id, d.id) ∈ (ofFile mode records).filterMap declaredJournal? := by
    rw [hjournals]
    exact List.mem_filterMap.2 ⟨_, hd, if_pos hj⟩
  obtain ⟨f, hf, he⟩ := List.mem_filterMap.1 hm
  refine ⟨f, hf, ?_⟩
  cases f with
  | declaresJournal id written => cases he; exact beq_self_eq_true _
  | _ => cases he

theorem founded_ofFile (topic : String) (records : List Record) : Founded topic (ofFile mode records) := by
  induction records using List.reverseRecOn with
  | nil => intro n hn; cases hn
  | append_singleton records record ih =>
    rw [ofFile_concat]
    refine ih.append fun n hn => ?_
    obtain ⟨d, hd, hj, rfl⟩ := journal_of_index h ((List.takeWhile_sublist _).subset hn)
    exact exists_isJournal h hd hj

/-- **In the facts of files every index comes after its journal.** -/
theorem founded_ofFiles (topic : String) : ∀ (files : List RecordFile), Founded topic (ofFiles mode files)
  | [], _, hn => by cases hn
  | file :: files, n, hn =>
    (founded_ofFile h topic file.records).append (fun n hn => absurd hn (founded_ofFiles topic files n)) n hn

end Journals

end Fact
end Rules
end WorldAudit
