import Mathlib.Data.Nat.Bitwise
import WorldAudit.Proofs.Audit.Memory
import WorldAudit.Proofs.Catalog
import WorldAudit.Proofs.Rules.Conduct
/-!
# Nesting — levelled lists inside levelled lists

An entry that names a list is judged at the end, when the lists of all files are known, so it does not matter in which
order they come (`lists_in_any_order`).  A list is known by the level of its first entry, which is its least one only if
no later entry is below it (`nested_lists_judged_iff`).
-/
namespace WorldAudit
namespace Rules

open Ledger (records)

/-! ## The lists of files -/

/-- The levelled list that a record is. -/
def list? : Record → Option LevelledList
  | .levelled _ list => some list
  | _ => none

def entriesOf (record : Record) : List LevelledEntry := ((list? record).map (·.entries)).getD []

/-- The entries of all lists, each with the record that it stands in. -/
def listed (rs : List Record) : List (Record × LevelledEntry) := rs.flatMap fun r => (entriesOf r).map (r, ·)

/-- The ids in lower case under which lists are declared, one for each record. -/
def listIds (rs : List Record) : List String := (rs.filterMap list?).map (Text.lower ·.id)

/-- The lists that an entry names. -/
def named (rs : List Record) (entry : LevelledEntry) : List LevelledList :=
  (rs.filterMap list?).filter fun list => Text.lower list.id == Text.lower entry.id

/-- **An entry that does not resolve to anything at its level**: the list that it names has entries, all of them of
higher levels. -/
def resolvesToNothing (rs : List Record) (entry : LevelledEntry) : Bool :=
  (named rs entry).any fun list => !list.entries.isEmpty && list.entries.all (entry.level < ·.level)

/-- An entry below the first entry of the list that it names. -/
def belowFirst (rs : List Record) (entry : LevelledEntry) : Bool :=
  (named rs entry).any fun list => list.entries.head?.any (entry.level < ·.level)

/-- What is said of an entry that does not resolve to anything. -/
def nestingFinding (p : Record × LevelledEntry) : Finding :=
  ⟨p.1.kind.name, p.1.id,
    s!"contains {p.2.id} at level {p.2.level} which will not resolve to anything at that level"⟩

def allLevelsBit : ListKind → Nat
  | .creature => 1
  | .item => 2

/-- **A list that should be calculated for all levels and is not**: the bit that says so is clear, and two of its
entries are of different levels. -/
def wantsAllLevels : Record → Bool
  | .levelled kind list =>
    list.flags &&& allLevelsBit kind == 0 && list.entries.any fun a => list.entries.any fun b => a.level != b.level
  | _ => false

theorem mem_named {rs : List Record} {entry : LevelledEntry} {list : LevelledList} :
    list ∈ named rs entry ↔ list ∈ rs.filterMap list? ∧ Text.lower list.id = Text.lower entry.id := by
  rw [named, List.mem_filter, beq_iff_eq]

/-- An entry that does not resolve to anything is below the first entry of the list that it names. -/
theorem belowFirst_of_resolvesToNothing {rs : List Record} {entry : LevelledEntry}
    (h : resolvesToNothing rs entry = true) : belowFirst rs entry = true := by
  obtain ⟨list, hlist, hall⟩ := List.any_eq_true.1 h
  refine List.any_eq_true.2 ⟨list, hlist, ?_⟩
  cases hentries : list.entries with
  | nil => simp [hentries] at hall
  | cons first rest =>
    simp only [hentries, Bool.and_eq_true, List.all_cons] at hall
    exact hall.2.1

theorem hasSeveralLevels_eq (entries : List LevelledEntry) :
    hasSeveralLevels entries = entries.any fun a => entries.any fun b => a.level != b.level := by
  cases entries with
  | nil => rfl
  | cons first rest =>
    rw [Bool.eq_iff_iff]
    simp only [hasSeveralLevels, List.any_eq_true, bne_iff_ne, ne_eq]
    constructor
    · rintro ⟨e, he, hne⟩
      exact ⟨e, List.mem_cons_of_mem first he, first, List.mem_cons_self, hne⟩
    · rintro ⟨a, ha, b, hb, hne⟩
      by_contra hall
      push Not at hall
      have hfirst : ∀ e ∈ first :: rest, e.level = first.level := fun e he => by
        rcases List.mem_cons.1 he with rfl | he
        · rfl
        · exact hall e he
      exact hne ((hfirst a ha).trans (hfirst b hb).symm)

theorem lacksAllLevels_eq (kind : ListKind) (list : LevelledList) :
    lacksAllLevels kind list = wantsAllLevels (.levelled kind list) := by
  have hbit : (!list.flags.testBit (allLevelsFlag kind)) = (list.flags &&& allLevelsBit kind == 0) := by
    have htwo : allLevelsBit kind = 2 ^ allLevelsFlag kind := by cases kind <;> rfl
    rw [htwo, Nat.and_two_pow]
    cases list.flags.testBit (allLevelsFlag kind) <;> simp
  rw [lacksAllLevels, hbit, hasSeveralLevels_eq, wantsAllLevels]

/-! ## What the rule remembers -/

/-- The level of the first entry of a list, under the id of the list in lower case. -/
def firstLevel? (record : Record) : Option (String × Nat) :=
  (list? record).bind fun list => list.entries.head?.map fun first => (Text.lower list.id, first.level)

/-- What is kept of an entry of a record. -/
def pending (owner : Record) (entry : LevelledEntry) : PendingEntry :=
  ⟨owner.kind, owner.id, entry.id, Text.lower entry.id, entry.level⟩

/-- What is said of a record when it is told of. -/
def flagFinding? (record : Record) : Option Finding :=
  if wantsAllLevels record then some (.about record "is not calculated for all levels") else none

/-- A memory of levels of lists, and of entries, the latest first. -/
def kept (levels : Catalog Nat) (entries : List PendingEntry) : levelledLists.State := LevelledState.mk levels entries

def keepLevel (levels : Catalog Nat) (record : Record) : Catalog Nat :=
  match firstLevel? record with
  | some e => Catalog.insert e.1 e.2 levels
  | none => levels

/-- The memory once a record has been told of. -/
def learnList (record : Record) (s : levelledLists.State) : levelledLists.State :=
  kept (keepLevel (LevelledState.firstLevels s) record)
    (((entriesOf record).map (pending record)).reverse ++ LevelledState.pending s)

theorem learnList_kept (record : Record) (levels : Catalog Nat) (entries : List PendingEntry) :
    learnList record (kept levels entries) =
      kept (keepLevel levels record) (((entriesOf record).map (pending record)).reverse ++ entries) := rfl

theorem told_entries (ctx : Context) (owner : Record) :
    ∀ (entries : List LevelledEntry) (n : Nat) (s : LevelledState),
      let calls := (entries.zipIdx n).map fun (e, k) => Call.levelledEntry owner e (Text.lower e.id) k
      levelledLists.found ctx calls s = [] ∧
      levelledLists.reached ctx calls s =
        LevelledState.mk s.firstLevels ((entries.map (pending owner)).reverse ++ s.pending)
  | [], _, _ => ⟨rfl, rfl⟩
  | entry :: entries, n, s => by
    obtain ⟨hfound, hreached⟩ :=
      told_entries ctx owner entries (n + 1) ⟨s.firstLevels, pending owner entry :: s.pending⟩
    refine ⟨hfound, hreached.trans ?_⟩
    rw [List.map_cons, List.reverse_cons, List.append_assoc]
    rfl

theorem levelledStep_list (ctx : Context) (kind : ListKind) (list : LevelledList) (s : LevelledState) :
    levelledStep ctx (.record (.levelled kind list) (Text.lower list.id)) s =
      { state := ⟨keepLevel s.firstLevels (.levelled kind list), s.pending⟩
        findings := (flagFinding? (.levelled kind list)).toList } := by
  rw [levelledStep, lacksAllLevels_eq, keepLevel, firstLevel?, list?, Option.bind_some, flagFinding?]
  cases list.entries <;> cases wantsAllLevels (.levelled kind list) <;> rfl

/-- Of a record that is no list, and of what it holds, nothing is said or kept. -/
theorem levelledStep_of_mem_callsOf {topic : Option Dialogue} {record : Record} (hrecord : list? record = none)
    (ctx : Context) : ∀ call ∈ Protocol.callsOf topic record, ∀ s, levelledStep ctx call s = { state := s } := by
  intro call hcall s
  rcases List.mem_cons.1 hcall with rfl | hcall
  · cases record <;> first | rfl | cases hrecord
  · cases call with
    | levelledEntry owner entry id k => cases record <;> simp [Protocol.innerCalls, list?] at hcall hrecord
    | record r id => exact absurd rfl ((Protocol.innerCalls_ne _ hcall).1 r id)
    | finish => exact absurd rfl (Protocol.innerCalls_ne _ hcall).2
    | _ => rfl

/-- **The rule goes from record to record.** -/
theorem remembers_levelledLists :
    levelledLists.Remembers (fun _ record _ => (flagFinding? record).toList) (fun _ record => learnList record) := by
  have hfault := fault_step_of_name .levelledLists rfl (by decide)
  have hcalls : ∀ ctx topic record (s : LevelledState),
      levelledLists.found ctx (Protocol.callsOf topic record) s = (flagFinding? record).toList ∧
      levelledLists.reached ctx (Protocol.callsOf topic record) s = learnList record s := by
    intro ctx topic record s
    cases record with
    | levelled kind list =>
      have hstep : levelledLists.step ctx (.record (.levelled kind list) (Text.lower list.id)) s = _ :=
        levelledStep_list ctx kind list s
      obtain ⟨hfound, hreached⟩ := told_entries ctx (.levelled kind list) list.entries 0
        (levelledStep ctx (.record (.levelled kind list) (Text.lower list.id)) s).state
      refine ⟨?_, ?_⟩
      · show (levelledLists.step ctx (.record (.levelled kind list) (Text.lower list.id)) s).findings ++ _ = _
        rw [hstep]
        exact (congrArg (_ ++ ·) hfound).trans (List.append_nil _)
      · refine hreached.trans ?_
        rw [levelledStep_list]
        rfl
    | _ => exact Rule.heedless (r := levelledLists) s (levelledStep_of_mem_callsOf rfl ctx)
  exact ⟨hfault, fun ctx topic record s => (hcalls ctx topic record s).1,
    fun ctx topic record s => (hcalls ctx topic record s).2⟩

/-- **The memory of records**: the levels of their lists, and the entries in them. -/
theorem memory_learnList : ∀ (ps : List (Context × Record)) (levels : Catalog Nat) (entries : List PendingEntry),
    Rule.memory (fun _ record => learnList record) ps (kept levels entries) =
      kept ((ps.map Prod.snd).foldl keepLevel levels)
        (((ps.map Prod.snd).flatMap fun record => (entriesOf record).map (pending record)).reverse ++ entries)
  | [], _, _ => rfl
  | p :: ps, levels, entries => by
    rw [Rule.memory_cons, learnList_kept, memory_learnList ps, List.map_cons, List.foldl_cons, List.flatMap_cons,
      List.reverse_append, List.append_assoc]

/-! ## What is said at the end -/

/-- The levels of lists as they are kept: of several lists of one id the last one that has entries counts. -/
def levelsOf (rs : List Record) : Catalog Nat := Catalog.ofEntries (rs.filterMap firstLevel?)

theorem foldl_keepLevel (rs : List Record) : rs.foldl keepLevel [] = levelsOf rs := by
  rw [levelsOf, Catalog.ofEntries, List.foldl_filterMap]
  refine congrArg (List.foldl · [] rs) (funext fun levels => funext fun record => ?_)
  rw [keepLevel]
  cases firstLevel? record <;> rfl

theorem finding?_pending (c : Catalog Nat) (p : Record × LevelledEntry) :
    (pending p.1 p.2).finding? c =
      if (Catalog.get? (Text.lower p.2.id) c).any (p.2.level < ·) then some (nestingFinding p) else none := by
  have hkey : (pending p.1 p.2).key = Text.lower p.2.id := rfl
  rw [PendingEntry.finding?, hkey]
  cases Catalog.get? (Text.lower p.2.id) c with
  | none => rfl
  | some least =>
    rw [Option.any_some]
    by_cases h : p.2.level < least <;> simp [pending, h, nestingFinding]

/-! ## Lists of different ids -/

section Unique

variable {rs : List Record}

theorem mem_filterMap_firstLevel? {key : String} {level : Nat} : (key, level) ∈ rs.filterMap firstLevel? ↔
    ∃ list ∈ rs.filterMap list?, Text.lower list.id = key ∧ ∃ first ∈ list.entries.head?, first.level = level := by
  have hcompose : rs.filterMap firstLevel? = (rs.filterMap list?).filterMap fun list =>
      list.entries.head?.map fun first => (Text.lower list.id, first.level) := by
    rw [List.filterMap_filterMap]
    rfl
  rw [hcompose, List.mem_filterMap]
  refine exists_congr fun list => and_congr_right fun _ => ?_
  rw [Option.map_eq_some_iff]
  simp only [Prod.mk.injEq, Option.mem_def]
  grind

variable (hunique : (listIds rs).Nodup)

include hunique

theorem eq_of_listIds_nodup {list list' : LevelledList} (hl : list ∈ rs.filterMap list?)
    (hl' : list' ∈ rs.filterMap list?) (hid : Text.lower list.id = Text.lower list'.id) : list = list' :=
  List.inj_on_of_nodup_map hunique hl hl' hid

/-- **Where lists have different ids, the level of every list is kept.** -/
theorem get?_levelsOf_iff {key : String} {level : Nat} :
    Catalog.get? key (levelsOf rs) = some level ↔ (key, level) ∈ rs.filterMap firstLevel? := by
  rw [levelsOf, Catalog.get?_ofEntries]
  constructor
  · intro h
    exact List.mem_reverse.1 (Catalog.mem_of_lookup h)
  · intro h
    obtain ⟨other, hother⟩ := Option.isSome_iff_exists.1
      (List.lookup_isSome_iff.2 ⟨_, List.mem_reverse.2 h, beq_self_eq_true key⟩)
    obtain ⟨list, hlist, hid, first, hfirst, rfl⟩ := mem_filterMap_firstLevel?.1 h
    obtain ⟨list', hlist', hid', first', hfirst', rfl⟩ :=
      mem_filterMap_firstLevel?.1 (List.mem_reverse.1 (Catalog.mem_of_lookup hother))
    obtain rfl := eq_of_listIds_nodup hunique hlist hlist' (hid.trans hid'.symm)
    rw [hother, Option.mem_unique hfirst hfirst']

theorem any_levelsOf (entry : LevelledEntry) :
    (Catalog.get? (Text.lower entry.id) (levelsOf rs)).any (entry.level < ·) = belowFirst rs entry := by
  rw [Bool.eq_iff_iff, Option.any_eq_true, belowFirst, List.any_eq_true]
  simp only [get?_levelsOf_iff hunique, mem_filterMap_firstLevel?, decide_eq_true_eq, mem_named, Option.any_eq_true]
  constructor
  · rintro ⟨_, ⟨list, hlist, hid, first, hfirst, rfl⟩, hlt⟩
    exact ⟨list, ⟨hlist, hid⟩, first, hfirst, hlt⟩
  · rintro ⟨list, ⟨hlist, hid⟩, first, hfirst, hlt⟩
    exact ⟨first.level, ⟨list, hlist, hid, first, hfirst, rfl⟩, hlt⟩

/-- Where lists have different ids, **an entry below the first entry of its list resolves to nothing** unless a later
entry of the list is not above it. -/
theorem resolvesToNothing_of_belowFirst_iff (entry : LevelledEntry) :
    (belowFirst rs entry = true → resolvesToNothing rs entry = true) ↔
      ∀ list ∈ named rs entry, ∀ first ∈ list.entries.head?, entry.level < first.level →
        ∀ e ∈ list.entries, entry.level < e.level := by
  constructor
  · intro himp list hlist first hfirst hlt e he
    have hbelow : belowFirst rs entry = true :=
      List.any_eq_true.2 ⟨list, hlist, (Option.any_eq_true _ _).2 ⟨first, hfirst, decide_eq_true hlt⟩⟩
    obtain ⟨list', hlist', hall⟩ := List.any_eq_true.1 (himp hbelow)
    obtain ⟨hl, hid⟩ := mem_named.1 hlist
    obtain ⟨hl', hid'⟩ := mem_named.1 hlist'
    obtain rfl := eq_of_listIds_nodup hunique hl hl' (hid.trans hid'.symm)
    exact of_decide_eq_true (List.all_eq_true.1 (Bool.and_eq_true_iff.1 hall).2 e he)
  · intro hlevels hbelow
    obtain ⟨list, hlist, hany⟩ := List.any_eq_true.1 hbelow
    obtain ⟨first, hfirst, hlt⟩ := (Option.any_eq_true _ _).1 hany
    have hne : list.entries.isEmpty = false := by
      cases hentries : list.entries with
      | nil => simp [hentries] at hfirst
      | cons e rest => rfl
    have hall : (list.entries.all fun e => decide (entry.level < e.level)) = true :=
      List.all_eq_true.2 fun e he => decide_eq_true (hlevels list hlist first hfirst (of_decide_eq_true hlt) e he)
    exact List.any_eq_true.2 ⟨list, hlist, by rw [hne, hall]; rfl⟩

end Unique

/-- Of two conditions the stricter one picks out as much only if what meets the other one meets it too. -/
theorem map_filter_eq_iff {α β : Type} {p q : α → Bool} (f : α → β) {l : List α}
    (h : ∀ a, q a = true → p a = true) :
    (l.filter p).map f = (l.filter q).map f ↔ ∀ a ∈ l, p a = true → q a = true := by
  constructor
  · intro heq a ha hp
    have hlength : (l.filter q).length = (l.filter p).length := by
      rw [← List.length_map f, ← heq, List.length_map]
    have hmem : a ∈ l.filter q := (List.monotone_filter_right l h).length_eq.1 hlength ▸ List.mem_filter.2 ⟨ha, hp⟩
    exact (List.mem_filter.1 hmem).2
  · intro hpq
    exact congrArg (List.map f) (List.filter_congr fun a ha => Bool.eq_iff_iff.2 ⟨hpq a ha, h a⟩)

section Runs

variable {settings : Settings} {rules : List Rule} {files : List RecordFile} {i : Nat}
  (hr : rules[i]? = some levelledLists) (hrun : (Run.of settings rules files).violation = none)

include hr hrun

theorem during_levelledLists : (Run.of settings rules files).during i =
    ((records files).filter wantsAllLevels).map (Finding.about · "is not calculated for all levels") := by
  rw [(Run.during_of_remembers hr hrun remembers_levelledLists).1]
  refine (Rule.sayings_of_record _ _ _ _).trans ?_
  rw [Protocol.map_snd_told, ← records, ← List.filterMap_eq_flatMap_toList, ← List.filterMap_eq_map,
    List.filterMap_filter]
  rfl

/-- **What is said at the end**: of every entry below the level that is kept of the list that it names. -/
theorem atEnd_levelledLists : (Run.of settings rules files).atEnd i =
    ((listed (records files)).filter fun p =>
      (Catalog.get? (Text.lower p.2.id) (levelsOf (records files))).any (p.2.level < ·)).map nestingFinding := by
  have hmemory : Rule.memory (fun _ record => learnList record) (Protocol.told settings files) levelledLists.initial =
      kept (levelsOf (records files)) (((listed (records files)).map fun p => pending p.1 p.2).reverse) := by
    refine (memory_learnList _ [] []).trans ?_
    rw [Protocol.map_snd_told, ← records, foldl_keepLevel, List.append_nil, listed, List.map_flatMap]
    simp only [List.map_map, Function.comp_def]
  rw [(Run.during_of_remembers hr hrun remembers_levelledLists).2, hmemory]
  show (List.reverse (List.reverse _)).filterMap (PendingEntry.finding? (levelsOf (records files))) = _
  rw [List.reverse_reverse, List.filterMap_map, ← List.filterMap_eq_map, List.filterMap_filter]
  exact List.filterMap_congr fun p _ => finding?_pending _ p

/-- What is said at the end, where lists have different ids: of every entry below the first entry of its list. -/
theorem atEnd_of_unique (hunique : (listIds (records files)).Nodup) : (Run.of settings rules files).atEnd i =
    ((listed (records files)).filter fun p => belowFirst (records files) p.2).map nestingFinding := by
  rw [atEnd_levelledLists hr hrun]
  exact congrArg _ (List.filter_congr fun p _ => any_levelsOf hunique p.2)

/-- **Which nested lists are reported.**  Where lists have different ids, an entry is reported at the end if it is below
the first entry of the list that it names.  So none is missed that does not resolve to anything at its level, and these
are all exactly if no list has an entry that resolves where its first entry does not. -/
theorem nested_lists_judged_iff (hunique : (listIds (records files)).Nodup) :
    let reported := (listed (records files)).filter fun p => belowFirst (records files) p.2
    let unresolved := (listed (records files)).filter fun p => resolvesToNothing (records files) p.2
    (Run.of settings rules files).atEnd i = reported.map nestingFinding ∧ unresolved.Sublist reported ∧
    ((Run.of settings rules files).atEnd i = unresolved.map nestingFinding ↔
      ∀ p ∈ listed (records files), ∀ list ∈ named (records files) p.2, ∀ first ∈ list.entries.head?,
        p.2.level < first.level → ∀ e ∈ list.entries, p.2.level < e.level) := by
  intro reported unresolved
  have hend := atEnd_of_unique hr hrun hunique
  refine ⟨hend, List.monotone_filter_right _ fun p => belowFirst_of_resolvesToNothing, ?_⟩
  rw [hend, map_filter_eq_iff nestingFinding fun p => belowFirst_of_resolvesToNothing]
  exact forall₂_congr fun p _ => resolvesToNothing_of_belowFirst_iff hunique p.2

end Runs

/-- Lists of two files, one of them inside the other and inside itself. -/
theorem nested_list_of_next_file :
    let files := [⟨"a.json", [.levelled .item { id := "box", flags := 2, entries := [⟨"BAG", 2⟩, ⟨"bag", 6⟩] }]⟩,
      ⟨"b.json", [.levelled .item { id := "bag", flags := 2, entries := [⟨"axe", 5⟩, ⟨"bag", 8⟩] }]⟩]
    let run := Run.of {} (standard {}) files
    (standard {})[4]? = some levelledLists ∧ run.violation = none ∧ (listIds (records files)).Nodup ∧
    run.atEnd 4 = [⟨"LevelledItem", "box",
      "contains BAG at level 2 which will not resolve to anything at that level"⟩] := by
  intro files run
  have hlower : Text.lower "BAG" = "bag" ∧ Text.lower "bag" = "bag" ∧ Text.lower "box" = "box" ∧
      Text.lower "axe" = "axe" := ⟨by rfl, by rfl, by rfl, by rfl⟩
  have hseat : (standard {})[4]? = some levelledLists := rfl
  have hrun : run.violation = none := (run_of_provided (provided_standard {}) {} files).1
  have hunique : (listIds (records files)).Nodup := by simp [files, listIds, records, list?, hlower]
  obtain ⟨hend, -, -⟩ := nested_lists_judged_iff hseat hrun hunique
  refine ⟨hseat, hrun, hunique, hend.trans ?_⟩
  simp [files, listed, entriesOf, records, list?, belowFirst, named, hlower]
  rfl

/-- **An entry that would resolve is reported** if only a later entry of its list is low enough. -/
theorem later_entry_overlooked :
    let files := [⟨"a.json", [.levelled .item { id := "box", flags := 2, entries := [⟨"bag", 2⟩] },
      .levelled .item { id := "bag", flags := 2, entries := [⟨"axe", 5⟩, ⟨"rod", 1⟩] }]⟩]
    let run := Run.of {} [levelledLists] files
    run.violation = none ∧ (listIds (records files)).Nodup ∧
    (∀ p ∈ listed (records files), resolvesToNothing (records files) p.2 = false) ∧
    run.atEnd 0 = [⟨"LevelledItem", "box",
      "contains bag at level 2 which will not resolve to anything at that level"⟩] := by
  intro files run
  have hlower : Text.lower "bag" = "bag" ∧ Text.lower "box" = "box" ∧ Text.lower "axe" = "axe" ∧
      Text.lower "rod" = "rod" := ⟨by rfl, by rfl, by rfl, by rfl⟩
  have hrun : run.violation = none :=
    (run_of_provided (fun r hr => List.mem_singleton.1 hr ▸ .levelledLists) {} files).1
  have hunique : (listIds (records files)).Nodup := by simp [files, listIds, records, list?, hlower]
  refine ⟨hrun, hunique, ?_, (atEnd_of_unique (by rfl) hrun hunique).trans ?_⟩
  · simp [files, listed, entriesOf, records, list?, resolvesToNothing, named, hlower]
  · simp [files, listed, entriesOf, records, list?, belowFirst, named, hlower]
    rfl

/-! ## Another order -/

theorem belowFirst_perm {rs rs' : List Record} (h : rs.Perm rs') (entry : LevelledEntry) :
    belowFirst rs entry = belowFirst rs' entry :=
  ((h.filterMap list?).filter _).any_eq

/-- **The order of the records does not matter.**  Where lists have different ids, the same records, put into any files
in any order, are reported alike: while they are told of, every list that should be calculated for all levels, and at
the end the entries in them. -/
theorem lists_in_any_order {files files' : List RecordFile} (hperm : (records files).Perm (records files'))
    (hunique : (listIds (records files)).Nodup) {settings : Settings} {rules : List Rule} {i : Nat}
    (hr : rules[i]? = some levelledLists) (hrun : (Run.of settings rules files).violation = none)
    (hrun' : (Run.of settings rules files').violation = none) :
    let run := Run.of settings rules files
    let run' := Run.of settings rules files'
    ((run.log.filter (·.seat == i)).flatMap Delivery.report).Perm
      ((run'.log.filter (·.seat == i)).flatMap Delivery.report) ∧
    (run.during i).Perm (run'.during i) ∧ (run.atEnd i).Perm (run'.atEnd i) ∧
    run.during i =
      ((records files).filter wantsAllLevels).map (Finding.about · "is not calculated for all levels") := by
  intro run run'
  have hunique' : (listIds (records files')).Nodup := ((hperm.filterMap list?).map _).nodup_iff.1 hunique
  have hduring : (run.during i).Perm (run'.during i) := by
    rw [during_levelledLists hr hrun, during_levelledLists hr hrun']
    exact (hperm.filter _).map _
  have hend : (run.atEnd i).Perm (run'.atEnd i) := by
    rw [atEnd_of_unique hr hrun hunique, atEnd_of_unique hr hrun' hunique']
    simp only [belowFirst_perm hperm]
    exact ((hperm.flatMap_right _).filter _).map _
  refine ⟨?_, hduring, hend, during_levelledLists hr hrun⟩
  rw [Run.report_eq_during_atEnd hr hrun, Run.report_eq_during_atEnd hr hrun']
  exact hduring.append hend

/-- Three lists of two files, in another order in three. -/
theorem three_lists_in_any_order :
    let box : Record := .levelled .item { id := "box", flags := 2, entries := [⟨"bag", 2⟩] }
    let bag : Record := .levelled .item { id := "BAG", flags := 1, entries := [⟨"axe", 5⟩, ⟨"rod", 8⟩] }
    let den : Record := .levelled .creature { id := "den", entries := [⟨"rat", 1⟩, ⟨"cub", 5⟩] }
    let files : List RecordFile := [⟨"a.json", [box, bag]⟩, ⟨"b.json", [den]⟩]
    let files' : List RecordFile := [⟨"a.json", [bag]⟩, ⟨"b.json", []⟩, ⟨"c.json", [den, box]⟩]
    (records files).Perm (records files') ∧ (listIds (records files)).Nodup ∧
    (standard {})[4]? = some levelledLists ∧ (Run.of {} (standard {}) files).violation = none ∧
    (Run.of {} (standard {}) files').violation = none ∧
    (((Run.of {} (standard {}) files').log.filter (·.seat == 4)).flatMap Delivery.report).Perm
      [⟨"LevelledItem", "BAG", "is not calculated for all levels"⟩,
        ⟨"LevelledCreature", "den", "is not calculated for all levels"⟩,
        ⟨"LevelledItem", "box", "contains bag at level 2 which will not resolve to anything at that level"⟩] := by
  intro box bag den files files'
  have hlower : Text.lower "BAG" = "bag" ∧ Text.lower "bag" = "bag" ∧ Text.lower "box" = "box" ∧
      Text.lower "den" = "den" ∧ Text.lower "rat" = "rat" := ⟨by rfl, by rfl, by rfl, by rfl, by rfl⟩
  have hperm : (records files).Perm (records files') := @List.perm_append_comm _ [box] [bag, den]
  have hunique : (listIds (records files)).Nodup := by
    simp [files, box, bag, den, listIds, records, list?, hlower]
  have hseat : (standard {})[4]? = some levelledLists := rfl
  have hrun := (run_of_provided (provided_standard {}) {} files).1
  have hrun' := (run_of_provided (provided_standard {}) {} files').1
  obtain ⟨hreport, -, -, -⟩ := lists_in_any_order hperm hunique hseat hrun hrun'
  refine ⟨hperm, hunique, hseat, hrun, hrun', hreport.symm.trans (.of_eq ?_)⟩
  rw [Run.report_eq_during_atEnd hseat hrun, during_levelledLists hseat hrun, atEnd_of_unique hseat hrun hunique]
  simp [files, box, bag, den, listed, entriesOf, records, list?, belowFirst, named, wantsAllLevels, allLevelsBit,
    hlower]
  exact ⟨by rfl, by rfl, by rfl⟩

end Rules
end WorldAudit
