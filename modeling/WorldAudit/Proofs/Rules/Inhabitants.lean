import Mathlib
import WorldAudit.Proofs.Audit.Memory
import WorldAudit.Proofs.Rules.Conduct
/-!
# Inhabitants — who lives in the interiors of the last file

The interiors of the last file are checked, each with what the records before it have declared (`reports_population`).
Whoever has been declared alive once is counted from then on, so one whom a later file overrides as dead is counted as
well (`overrides_counted_iff`).
-/
namespace WorldAudit
namespace Rules

open Ledger (records)

/-! ## The account of files -/

/-- Whether what a record declares is alive, if it declares a creature, a person or a list of creatures. -/
def living? : Record → Option Bool
  | .levelled .creature _ => some true
  | .actor .creature actor | .actor .npc actor => some (!actor.isDead)
  | _ => none

/-- What the declarations of an id say, one after another: whether it is alive. -/
def fates (rs : List Record) (key : String) : List Bool :=
  (rs.filter fun r => Text.lower r.id == key).filterMap living?

/-- **Declared alive** by one of the records. -/
def everAlive (rs : List Record) (key : String) : Bool := (fates rs key).contains true

/-- **Alive by the last declaration** among the records. -/
def lastAlive (rs : List Record) (key : String) : Bool := (fates rs key).getLast? == some true

/-- The number of references of a cell to those who are alive; references that are deleted do not count. -/
def inhabitantCount (alive : String → Bool) (cell : Cell) : Nat :=
  cell.references.countP fun r => !r.isDeleted && alive (Text.lower r.id)

/-- The cell that a record is, if it is one to check: an interior with more than one reference. -/
def checked? : Record → Option Cell
  | .cell cell => if cell.isInterior && decide (1 < cell.references.length) then some cell else none
  | _ => none

/-- **The cells that are checked**: those of the last file, each with all records before it. -/
def checkedCells (files : List RecordFile) : List (List Record × Cell) :=
  match files.getLast? with
  | none => []
  | some last => last.records.zipIdx.filterMap fun (record, j) =>
    (checked? record).map (records files.dropLast ++ last.records.take j, ·)

/-- The cell that a path grid is for, in lower case. -/
def gridKey? : Record → Option String
  | .pathGrid grid => grid.cell.map Text.lower
  | _ => none

/-- What is said of a cell of so many inhabitants, if they are fewer than asked for. -/
def sparseFinding? (least count : Nat) (cell : Cell) : Option Finding :=
  if count < least then some ⟨"Cell", cell.id, s!"contains {count} NPCs or creatures"⟩ else none

/-- What is said of a cell by an account of who is alive. -/
def sparse? (least : Nat) (alive : List Record → String → Bool) (p : List Record × Cell) : Option Finding :=
  sparseFinding? least (inhabitantCount (alive p.1) p.2) p.2

def pathlessFinding (cell : Cell) : Finding := ⟨"Cell", cell.id, "is missing a path grid"⟩

/-! ## What the rule remembers -/

theorem declaresInhabitant_iff (record : Record) : declaresInhabitant record = true ↔ living? record = some true := by
  cases record with
  | levelled kind list => cases kind <;> simp [declaresInhabitant, living?]
  | actor kind actor => cases kind <;> simp [declaresInhabitant, living?]
  | _ => simp [declaresInhabitant, living?]

/-- The id in lower case of a record that declares an inhabitant. -/
def inhabitant? (record : Record) : Option String :=
  if declaresInhabitant record then some (Text.lower record.id) else none

theorem contains_inhabitants (rs : List Record) (key : String) :
    (rs.filterMap inhabitant?).contains key = everAlive rs key := by
  rw [Bool.eq_iff_iff, everAlive, List.contains_iff_mem, List.contains_iff_mem, fates, List.mem_filterMap,
    List.mem_filterMap]
  simp only [List.mem_filter, beq_iff_eq, inhabitant?, declaresInhabitant_iff]
  grind

/-- What is kept of a cell that is checked. -/
def keptCell (cell : Cell) : CheckedCell := ⟨Text.lower cell.id, cell.id⟩

/-- The cell to check that a record is, where the file is the last one. -/
def checkedIn? (ctx : Context) (record : Record) : Option Cell := if ctx.isLast then checked? record else none

/-- A memory of inhabitants, path grids and cells, the latest first. -/
def census (least : Nat) (inhabitants pathGrids : List String) (cells : List CheckedCell) : (populated least).State :=
  PopulationState.mk inhabitants pathGrids cells

/-- What is said of a record when it is told of. -/
def saySparse (least : Nat) (ctx : Context) (record : Record) (s : (populated least).State) : List Finding :=
  ((checkedIn? ctx record).bind fun cell =>
    sparseFinding? least (population (PopulationState.inhabitants s) cell) cell).toList

/-- The memory once a record has been told of. -/
def learnCensus (least : Nat) (ctx : Context) (record : Record) (s : (populated least).State) :
    (populated least).State :=
  census least ((inhabitant? record).toList ++ PopulationState.inhabitants s)
    ((gridKey? record).toList ++ PopulationState.pathGrids s)
    (((checkedIn? ctx record).map keptCell).toList ++ PopulationState.cells s)

theorem populationStep_record (least : Nat) (ctx : Context) (record : Record) (s : PopulationState) :
    populationStep least ctx (.record record (Text.lower record.id)) s =
      { state := learnCensus least ctx record s, findings := saySparse least ctx record s } := by
  unfold learnCensus saySparse census checkedIn?
  cases record with
  | cell cell =>
    cases hlast : ctx.isLast with
    | false => simp [populationStep, hlast, inhabitant?, declaresInhabitant, gridKey?]
    | true =>
      cases hchecked : cell.isInterior && decide (1 < cell.references.length) with
      | false => simp [populationStep, hlast, hchecked, checked?, inhabitant?, declaresInhabitant, gridKey?]
      | true =>
        have hname : cell.displayName = cell.id := if_pos (Bool.and_eq_true_iff.1 hchecked).1
        by_cases hcount : population s.inhabitants cell < least <;>
          simp [populationStep, hlast, hchecked, hname, hcount, checked?, inhabitant?, declaresInhabitant, gridKey?,
            keptCell, sparseFinding?, Record.id, Record.id?]
  | pathGrid grid =>
    cases h : grid.cell <;> simp [populationStep, h, inhabitant?, declaresInhabitant, gridKey?, checked?]
  | levelled kind list => cases kind <;> simp [populationStep, inhabitant?, declaresInhabitant, gridKey?, checked?]
  | actor kind actor =>
    cases kind <;> cases h : actor.isDead <;>
      simp [populationStep, h, inhabitant?, declaresInhabitant, gridKey?, checked?]
  | _ => simp [populationStep, inhabitant?, declaresInhabitant, gridKey?, checked?]

/-- **The rule goes from record to record.** -/
theorem remembers_populated (least : Nat) : (populated least).Remembers (saySparse least) (learnCensus least) := by
  have hfault := fault_step_of_name (.populated least) (show _ = "population" from rfl) (by decide)
  have hstep : ∀ ctx (record : Record) s, (populated least).step ctx (.record record (Text.lower record.id)) s =
      { state := learnCensus least ctx record s, findings := saySparse least ctx record s } :=
    populationStep_record least
  have hother : ∀ ctx call s, (∀ record id, call ≠ .record record id) → call ≠ .finish →
      (populated least).step ctx call s = { state := s } := by
    intro ctx call s hrecord hfinish
    cases call with
    | record record id => exact absurd rfl (hrecord record id)
    | finish => exact absurd rfl hfinish
    | _ => rfl
  simpa only [hstep] using Rule.remembers_of_records hfault hother

theorem reverse_filterMap_cons {α β : Type} (f : α → Option β) (a : α) (as : List α) (rest : List β) :
    (as.filterMap f).reverse ++ ((f a).toList ++ rest) = ((a :: as).filterMap f).reverse ++ rest := by
  cases h : f a <;> simp [h]

/-- **The memory of records**: those who are alive, the path grids, and the cells of the last file. -/
theorem memory_learnCensus (least : Nat) : ∀ (ps : List (Context × Record)) (inhabitants pathGrids : List String)
    (cells : List CheckedCell),
    Rule.memory (learnCensus least) ps (census least inhabitants pathGrids cells) =
      census least (((ps.map Prod.snd).filterMap inhabitant?).reverse ++ inhabitants)
        (((ps.map Prod.snd).filterMap gridKey?).reverse ++ pathGrids)
        ((ps.filterMap fun p => (checkedIn? p.1 p.2).map keptCell).reverse ++ cells)
  | [], _, _, _ => rfl
  | p :: ps, inhabitants, pathGrids, cells => by
    rw [Rule.memory_cons]
    refine (memory_learnCensus least ps _ _ _).trans ?_
    have halive := reverse_filterMap_cons inhabitant? p.2 (ps.map Prod.snd) inhabitants
    have hgrids := reverse_filterMap_cons gridKey? p.2 (ps.map Prod.snd) pathGrids
    have hcells := reverse_filterMap_cons (fun p => (checkedIn? p.1 p.2).map keptCell) p ps cells
    exact congr (congr (congrArg (census least) halive) hgrids) hcells

theorem population_eq (rs : List Record) (cell : Cell) :
    population (rs.filterMap inhabitant?).reverse cell = inhabitantCount (everAlive rs) cell := by
  rw [population, inhabitantCount, List.countP_eq_length_filter]
  simp only [List.contains_reverse, contains_inhabitants]

/-- **Of a record is said what the records before it declare.** -/
theorem saySparse_memory (least : Nat) (ctx : Context) (record : Record) (ps : List (Context × Record)) :
    saySparse least ctx record (Rule.memory (learnCensus least) ps (populated least).initial) =
      ((checkedIn? ctx record).bind fun cell => sparse? least everAlive (ps.map Prod.snd, cell)).toList := by
  rw [show (populated least).initial = census least [] [] [] from rfl, memory_learnCensus, saySparse]
  simp only [census, List.append_nil, population_eq, sparse?]

theorem checkedCells_concat (front : List RecordFile) (last : RecordFile) :
    checkedCells (front ++ [last]) = last.records.zipIdx.filterMap fun (record, j) =>
      (checked? record).map (records front ++ last.records.take j, ·) := by
  rw [checkedCells, List.getLast?_concat, List.dropLast_concat]

/-! ## Overrides -/

/-- **Overridden as dead**: a reference that is not deleted, to one who is declared alive, but not by the last
declaration. -/
def overriddenDead (before : List Record) (r : Reference) : Bool :=
  !r.isDeleted && (everAlive before (Text.lower r.id) && !lastAlive before (Text.lower r.id))

theorem everAlive_of_lastAlive {rs : List Record} {key : String} (h : lastAlive rs key = true) :
    everAlive rs key = true :=
  List.contains_iff_mem.2 (List.mem_of_getLast? (beq_iff_eq.1 h))

/-- **Those overridden as dead are counted** with those who are alive by the last declaration. -/
theorem inhabitantCount_everAlive (before : List Record) (cell : Cell) :
    inhabitantCount (everAlive before) cell =
      inhabitantCount (lastAlive before) cell + cell.references.countP (overriddenDead before) := by
  rw [inhabitantCount, inhabitantCount]
  induction cell.references with
  | nil => rfl
  | cons r rs ih =>
    rw [List.countP_cons, List.countP_cons, List.countP_cons, ih, overriddenDead]
    -- One who is alive by the last declaration has been declared alive, so three of the four cases are left.
    cases hlast : lastAlive before (Text.lower r.id) with
    | false => cases r.isDeleted <;> cases everAlive before (Text.lower r.id) <;> simp [Nat.add_assoc]
    | true =>
      rw [everAlive_of_lastAlive hlast]
      cases r.isDeleted <;> simp [Nat.add_right_comm]

theorem sparseFinding?_eq_none_iff {least count : Nat} {cell : Cell} :
    sparseFinding? least count cell = none ↔ least ≤ count := by
  rw [sparseFinding?, ite_eq_right_iff, ← Nat.not_lt]
  exact imp_congr_right fun _ => iff_of_false (Option.some_ne_none _) id

theorem sparseFinding?_add_eq_iff {least count more : Nat} {cell : Cell} :
    sparseFinding? least (count + more) cell = sparseFinding? least count cell ↔ least ≤ count ∨ more = 0 := by
  rcases Nat.lt_or_ge count least with hlt | hle
  · rw [or_iff_right (Nat.not_le.2 hlt)]
    constructor
    · intro heq
      have hless : count + more < least := by
        by_contra! hle
        rw [sparseFinding?_eq_none_iff.2 hle, eq_comm, sparseFinding?_eq_none_iff] at heq
        exact absurd hlt (Nat.not_lt.2 heq)
      rw [sparseFinding?, sparseFinding?, if_pos hlt, if_pos hless, Option.some_inj] at heq
      have hmessage := congrArg Finding.message heq
      have hrepr : (count + more).repr = count.repr := by simpa using hmessage
      exact Nat.add_eq_left.1 (Nat.repr_inj.1 hrepr)
    · rintro rfl
      rw [Nat.add_zero]
  · rw [sparseFinding?_eq_none_iff.2 hle, sparseFinding?_eq_none_iff.2 (Nat.le_add_right_of_le hle)]
    exact iff_of_true rfl (.inl hle)

theorem sparse?_lastAlive_isSome {least : Nat} {p : List Record × Cell}
    (h : (sparse? least everAlive p).isSome = true) : (sparse? least lastAlive p).isSome = true := by
  rw [← Option.ne_none_iff_isSome] at h ⊢
  refine mt (fun hnone => ?_) h
  rw [sparse?, sparseFinding?_eq_none_iff, inhabitantCount_everAlive]
  exact Nat.le_add_right_of_le (sparseFinding?_eq_none_iff.1 hnone)

theorem sparse?_eq_iff {least : Nat} {p : List Record × Cell} :
    sparse? least everAlive p = sparse? least lastAlive p ↔
      least ≤ inhabitantCount (lastAlive p.1) p.2 ∨ p.2.references.countP (overriddenDead p.1) = 0 := by
  rw [sparse?, sparse?, inhabitantCount_everAlive, sparseFinding?_add_eq_iff]

/-- Of two partial maps, the one defined less often gives the same results only where it is the same map. -/
theorem filterMap_eq_iff {α β : Type} {f g : α → Option β}
    (h : ∀ a, (f a).isSome = true → (g a).isSome = true) :
    ∀ {l : List α}, l.filterMap f = l.filterMap g ↔ ∀ a ∈ l, f a = g a
  | [] => by simp
  | a :: l => by
    have ih := filterMap_eq_iff h (l := l)
    rw [List.filterMap_cons, List.filterMap_cons, List.forall_mem_cons]
    cases hf : f a with
    | some b =>
      obtain ⟨c, hc⟩ := Option.isSome_iff_exists.1 (h a (hf ▸ rfl))
      simp [hc, ih]
    | none =>
      cases hg : g a with
      | none => simpa using ih
      | some c =>
        -- A result that the first map lacks is never made up for: it gives no more results on the rest.
        have hle : (l.filterMap f).length ≤ (l.filterMap g).length := by
          rw [List.length_filterMap_eq_countP, List.length_filterMap_eq_countP]
          exact List.countP_mono_left fun b _ => h b
        refine iff_of_false (fun heq => ?_) fun hall => Option.some_ne_none c hall.1.symm
        have hlength : (l.filterMap f).length = (l.filterMap g).length + 1 := congrArg List.length heq
        omega

/-! ## Reports -/

section Runs

variable {settings : Settings} {rules : List Rule} {files : List RecordFile} {i least : Nat}

theorem filterMap_checkedIn?_told : (Protocol.told settings files).filterMap (fun p => checkedIn? p.1 p.2) =
    (checkedCells files).map Prod.snd := by
  rcases List.eq_nil_or_concat' files with rfl | ⟨front, last, rfl⟩
  · rfl
  · obtain ⟨earlier, htold, hearlier, -⟩ := Protocol.told_concat settings front last
    have hnone : earlier.filterMap (fun p => checkedIn? p.1 p.2) = [] :=
      List.filterMap_eq_nil_iff.2 fun p hp => by rw [checkedIn?, hearlier p hp, if_neg Bool.false_ne_true]
    rw [htold, List.filterMap_append, hnone, checkedCells_concat, List.map_filterMap, List.nil_append,
      List.filterMap_map]
    conv => lhs; rw [← List.zipIdx_map_fst 0 last.records, List.filterMap_map]
    simp [checkedIn?, Function.comp_def]

variable (hr : rules[i]? = some (populated least)) (hrun : (Run.of settings rules files).violation = none)

include hr hrun

theorem during_populated :
    (Run.of settings rules files).during i = (checkedCells files).filterMap (sparse? least everAlive) := by
  rw [(Run.during_of_remembers hr hrun (remembers_populated least)).1]
  rcases List.eq_nil_or_concat' files with rfl | ⟨front, last, rfl⟩
  · rfl
  · obtain ⟨earlier, htold, hearlier, hrecords⟩ := Protocol.told_concat settings front last
    -- The files before the last one are remembered, but nothing is said of them.
    have hnone : ∀ p ∈ earlier, ∀ s, saySparse least p.1 p.2 s = [] := fun p hp s => by
      rw [saySparse, checkedIn?, hearlier p hp, if_neg Bool.false_ne_true, Option.bind_none, Option.toList_none]
    rw [htold, Rule.sayings_append, Rule.sayings_eq_nil _ _ _ _ hnone, List.nil_append, Rule.sayings_eq,
      List.zipIdx_map, List.flatMap_map, checkedCells_concat, List.filterMap_filterMap,
      List.filterMap_eq_flatMap_toList]
    simp only [← Rule.memory_append, saySparse_memory]
    refine congrArg (List.flatMap · last.records.zipIdx) (funext fun (record, j) => congrArg Option.toList ?_)
    have hbefore : (earlier ++ (last.records.map (Context.mk settings last.path true, ·)).take j).map Prod.snd =
        records front ++ last.records.take j := by
      rw [List.map_append, hrecords, ← records, ← List.map_take, List.map_map]
      exact congrArg _ (List.map_id _)
    rw [Option.bind_map]
    show (checked? record).bind _ = _
    exact congrArg _ (funext fun cell => by rw [← hbefore]; rfl)

theorem atEnd_populated : (Run.of settings rules files).atEnd i =
    ((checkedCells files).filter fun p => !((records files).filterMap gridKey?).contains (Text.lower p.2.id)).map
      (pathlessFinding ·.2) := by
  rw [(Run.during_of_remembers hr hrun (remembers_populated least)).2,
    show (populated least).initial = census least [] [] [] from rfl, memory_learnCensus]
  have hcells : (Protocol.told settings files).filterMap (fun p => (checkedIn? p.1 p.2).map keptCell) =
      ((checkedCells files).map Prod.snd).map keptCell := by
    rw [← filterMap_checkedIn?_told, List.map_filterMap]
  rw [hcells, Protocol.map_snd_told, ← records, List.append_nil, List.append_nil, List.append_nil]
  show ((List.reverse (List.reverse _)).filter fun c : CheckedCell => !(List.reverse _).contains c.key).map _ = _
  rw [List.reverse_reverse]
  simp only [List.contains_reverse, List.filter_map, List.map_map]
  rfl

/-- **The population of interiors over a run.**  While records are told of, those interiors of the last file with more
than one reference are reported, in their order, in which too few live whom records before them declare alive.  At the
end those of them are reported, in their order, that no path grid of the run is for. -/
theorem reports_population :
    (Run.of settings rules files).during i = (checkedCells files).filterMap (sparse? least everAlive) ∧
    (Run.of settings rules files).atEnd i = ((checkedCells files).filter fun p =>
      !((records files).filterMap gridKey?).contains (Text.lower p.2.id)).map (pathlessFinding ·.2) ∧
    ((Run.of settings rules files).log.filter (·.seat == i)).flatMap Delivery.report =
      (Run.of settings rules files).during i ++ (Run.of settings rules files).atEnd i :=
  ⟨during_populated hr hrun, atEnd_populated hr hrun, Run.report_eq_during_atEnd hr hrun⟩

/-- **Overrides that are counted.**  A cell is taken to have those inhabitants who are alive by the last declaration
before it, and also those overridden as dead.  So the report is the one that the last declarations ask for exactly if
every cell that is checked has enough of the former or none of the latter. -/
theorem overrides_counted_iff :
    (Run.of settings rules files).during i = (checkedCells files).filterMap (sparse? least everAlive) ∧
    (∀ p ∈ checkedCells files, inhabitantCount (everAlive p.1) p.2 =
      inhabitantCount (lastAlive p.1) p.2 + p.2.references.countP (overriddenDead p.1)) ∧
    ((Run.of settings rules files).during i = (checkedCells files).filterMap (sparse? least lastAlive) ↔
      ∀ p ∈ checkedCells files,
        least ≤ inhabitantCount (lastAlive p.1) p.2 ∨ p.2.references.countP (overriddenDead p.1) = 0) := by
  have hduring := during_populated hr hrun
  refine ⟨hduring, fun p _ => inhabitantCount_everAlive p.1 p.2, ?_⟩
  rw [hduring, filterMap_eq_iff fun p => sparse?_lastAlive_isSome]
  exact forall₂_congr fun p _ => sparse?_eq_iff

end Runs

/-- A cell with a path grid of an earlier file and too few who live there when it is told of, and one with enough of
them and no path grid. -/
theorem two_interiors_of_next_file :
    let placed := fun ids : List String => ids.map fun id => ({ id := id } : Reference)
    let gone : Reference := { id := "elf", deleted := some true }
    let den : Cell := ⟨"den", none, { flags := 1 }, gone :: placed ["elf", "orc", "rat"]⟩
    let pit : Cell := ⟨"pit", none, { flags := 1 }, placed ["rat", "bug"]⟩
    let files := [
      ⟨"a.json", [.actor .npc { id := "elf" }, .actor .npc { id := "orc", data := some { health := some 0 } },
        .pathGrid { cell := some "DEN" }, .cell ⟨"hut", none, { flags := 1 }, placed ["bed", "bed"]⟩]⟩,
      ⟨"b.json", [.levelled .creature { id := "bug" }, .cell den, .actor .creature { id := "RAT" }, .cell pit,
        .cell ⟨"box", none, { flags := 1 }, placed ["rat"]⟩, .cell ⟨"", some "sea", {}, placed ["bed", "bed"]⟩]⟩]
    let rules := standard { minInhabitants := some 2 }
    let run := Run.of {} rules files
    rules[5]? = some (populated 2) ∧ run.violation = none ∧
    (run.log.filter (·.seat == 5)).flatMap Delivery.report =
      [⟨"Cell", "den", "contains 1 NPCs or creatures"⟩, ⟨"Cell", "pit", "is missing a path grid"⟩] := by
  intro placed gone den pit files rules run
  have hlower : Text.lower "elf" = "elf" ∧ Text.lower "orc" = "orc" ∧ Text.lower "rat" = "rat" ∧
      Text.lower "RAT" = "rat" ∧ Text.lower "bug" = "bug" ∧ Text.lower "den" = "den" ∧ Text.lower "DEN" = "den" ∧
      Text.lower "pit" = "pit" ∧ Text.lower "hut" = "hut" :=
    ⟨by rfl, by rfl, by rfl, by rfl, by rfl, by rfl, by rfl, by rfl, by rfl⟩
  have hseat : rules[5]? = some (populated 2) := rfl
  have hrun : run.violation = none := (run_of_provided (provided_standard { minInhabitants := some 2 }) {} files).1
  obtain ⟨hduring, hend, hreport⟩ := reports_population hseat hrun
  have hcells : checkedCells files = [((records files).take 5, den), ((records files).take 7, pit)] := by
    simp [files, den, pit, placed, checkedCells, records, checked?, Cell.isInterior]
  have hgrids : (records files).filterMap gridKey? = ["den"] := by
    simp [files, records, gridKey?, List.filterMap_cons, hlower]
  have hden : inhabitantCount (everAlive ((records files).take 5)) den = 1 := by
    simp [inhabitantCount, Reference.isDeleted, everAlive, fates, living?, Actor.isDead, Record.id, Record.id?,
      records, files, den, gone, placed, hlower]
  have hpit : inhabitantCount (everAlive ((records files).take 7)) pit = 2 := by
    simp [inhabitantCount, Reference.isDeleted, everAlive, fates, living?, Actor.isDead, Record.id, Record.id?,
      records, files, den, pit, placed, hlower]
  refine ⟨hseat, hrun, hreport.trans ?_⟩
  rw [hduring, hend, hcells, hgrids]
  simp [sparse?, sparseFinding?, pathlessFinding, hden, hpit, den, pit, hlower]
  rfl

/-- People and creatures overridden both ways, of whom those alone are asked for who are alive in the end. -/
theorem overridden_both_ways :
    let dead : Option ActorData := some { health := some 0 }
    let placed := fun ids : List String => ids.map fun id => ({ id := id } : Reference)
    let den : Cell := ⟨"den", none, { flags := 1 }, placed ["elf", "rat", "bed"]⟩
    let pit : Cell := ⟨"pit", none, { flags := 1 }, placed ["elf", "elf", "rat", "orc"]⟩
    let files := [
      ⟨"a.json", [.actor .npc { id := "elf", data := dead }, .actor .npc { id := "orc" },
        .actor .creature { id := "rat" }]⟩,
      ⟨"b.json", [.actor .npc { id := "ELF" }, .actor .npc { id := "orc", data := dead },
        .actor .creature { id := "rat", data := dead }, .actor .creature { id := "rat" }, .cell den, .cell pit]⟩]
    let rules := standard { minInhabitants := some 3 }
    let run := Run.of {} rules files
    rules[5]? = some (populated 3) ∧ run.violation = none ∧
    run.during 5 = (checkedCells files).filterMap (sparse? 3 lastAlive) ∧
    run.during 5 = [⟨"Cell", "den", "contains 2 NPCs or creatures"⟩] := by
  intro dead placed den pit files rules run
  have hlower : Text.lower "elf" = "elf" ∧ Text.lower "ELF" = "elf" ∧ Text.lower "orc" = "orc" ∧
      Text.lower "rat" = "rat" ∧ Text.lower "bed" = "bed" ∧ Text.lower "den" = "den" :=
    ⟨by rfl, by rfl, by rfl, by rfl, by rfl, by rfl⟩
  have hseat : rules[5]? = some (populated 3) := rfl
  have hrun : run.violation = none := (run_of_provided (provided_standard { minInhabitants := some 3 }) {} files).1
  obtain ⟨-, -, hiff⟩ := overrides_counted_iff hseat hrun
  have hcells : checkedCells files = [((records files).take 7, den), ((records files).take 8, pit)] := by
    simp [files, den, pit, placed, checkedCells, records, checked?, Cell.isInterior]
  have hden : inhabitantCount (lastAlive ((records files).take 7)) den = 2 ∧
      den.references.countP (overriddenDead ((records files).take 7)) = 0 := by
    simp [inhabitantCount, overriddenDead, Reference.isDeleted, everAlive, lastAlive, fates, living?, Actor.isDead,
      Record.id, Record.id?, records, files, dead, den, placed, hlower]
  have hpit : inhabitantCount (lastAlive ((records files).take 8)) pit = 3 := by
    simp [inhabitantCount, Reference.isDeleted, lastAlive, fates, living?, Actor.isDead, Record.id, Record.id?,
      records, files, dead, den, pit, placed, hlower]
  have hsame := hiff.2 (hcells ▸ List.forall_mem_cons.2 ⟨.inr hden.2, List.forall_mem_singleton.2 (.inl hpit.ge)⟩)
  refine ⟨hseat, hrun, hsame, hsame.trans ?_⟩
  simp [hcells, sparse?, sparseFinding?, hden, hpit, den]
  rfl

/-- **One who is overridden as dead is counted.** -/
theorem overridden_as_dead_counted :
    let den : Cell := ⟨"den", none, { flags := 1 }, [{ id := "elf" }, { id := "bed" }]⟩
    let files := [⟨"base.json", [.actor .npc { id := "elf" }]⟩,
      ⟨"patch.json", [.actor .npc { id := "elf", data := some { health := some 0 } },
        .pathGrid { cell := some "den" }, .cell den]⟩]
    let run := Run.of {} [populated 1] files
    run.violation = none ∧ checkedCells files = [((records files).take 3, den)] ∧
    lastAlive ((records files).take 3) "elf" = false ∧
    (checkedCells files).filterMap (sparse? 1 lastAlive) = [⟨"Cell", "den", "contains 0 NPCs or creatures"⟩] ∧
    run.during 0 = [] := by
  intro den files run
  have hlower : Text.lower "elf" = "elf" ∧ Text.lower "bed" = "bed" ∧ Text.lower "den" = "den" :=
    ⟨by rfl, by rfl, by rfl⟩
  have hrun : run.violation = none :=
    (run_of_provided (fun r hr => List.mem_singleton.1 hr ▸ .populated 1) {} files).1
  have hcells : checkedCells files = [((records files).take 3, den)] := by
    simp [files, den, checkedCells, records, checked?, Cell.isInterior]
  have hlast : inhabitantCount (lastAlive ((records files).take 3)) den = 0 := by
    simp [inhabitantCount, Reference.isDeleted, lastAlive, fates, living?, Actor.isDead, Record.id, Record.id?,
      records, files, den, hlower]
  have hever : inhabitantCount (everAlive ((records files).take 3)) den = 1 := by
    simp [inhabitantCount, Reference.isDeleted, everAlive, fates, living?, Actor.isDead, Record.id, Record.id?,
      records, files, den, hlower]
  refine ⟨hrun, hcells, ?_, ?_, (during_populated (by rfl) hrun).trans ?_⟩
  · simp [lastAlive, fates, living?, Actor.isDead, Record.id, Record.id?, records, files, hlower]
  · simp [hcells, sparse?, sparseFinding?, hlast, den]
    rfl
  · simp [hcells, sparse?, sparseFinding?, hever]

end Rules
end WorldAudit
