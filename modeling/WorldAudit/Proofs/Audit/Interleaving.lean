import WorldAudit.Proofs.Rules.Conduct
/-!
# Interleaving — rules do not interfere

What a rule brings to a report depends on the rule and the files only (`due_results`).  So of a run with some of the
rules the report is that of the run with all of them, less what the others bring (`outcome_selected`), and the report of
a run interleaves those of its rules alone (`rules_do_not_interfere`).
-/
namespace WorldAudit

/-- **An interleaving of lists** in which each keeps its order: it starts with the first element of one of them and goes
on with an interleaving of the rest. -/
inductive Interleaves {ι α : Type} : (ι → List α) → List α → Prop
  | done {parts : ι → List α} (h : ∀ i, parts i = []) : Interleaves parts []
  | take {parts rest : ι → List α} {a : α} {whole : List α} (i : ι) (hi : parts i = a :: rest i)
    (hothers : ∀ j, j ≠ i → parts j = rest j) (h : Interleaves rest whole) : Interleaves parts (a :: whole)

theorem Interleaves.block {ι α : Type} [DecidableEq ι] (i : ι) : ∀ (as : List α) {parts rest : ι → List α} {whole : List α},
    parts i = as ++ rest i → (∀ j, j ≠ i → parts j = rest j) → Interleaves rest whole → Interleaves parts (as ++ whole)
  | [], parts, rest, whole, hi, hothers, h => by
    have : parts = rest := funext fun j => by
      by_cases hj : j = i
      · rw [hj, hi, List.nil_append]
      · exact hothers j hj
    rwa [this, List.nil_append]
  | a :: as, parts, rest, whole, hi, hothers, h => by
    let mid : ι → List α := fun j => if j = i then as ++ rest j else rest j
    have hmid : mid i = as ++ rest i := if_pos rfl
    have hrest : ∀ j, j ≠ i → mid j = rest j := fun j hj => if_neg hj
    refine .take i ?_ (fun j hj => ?_) (Interleaves.block i as hmid hrest h)
    · rw [hi, hmid]
      rfl
    · rw [hothers j hj, hrest j hj]

/-- What the members of a list bring, in its order, interleaves what those of each place bring. -/
theorem interleaves_flatMap {α β : Type} (place : β → Nat) (f : β → List α) (n : Nat) : ∀ (l : List β),
    (∀ b ∈ l, place b < n) → Interleaves (fun i : Fin n => (l.filter (place · == i.val)).flatMap f) (l.flatMap f)
  | [], _ => .done fun _ => rfl
  | b :: l, h => by
    have ih := interleaves_flatMap place f n l fun b' hb => h b' (List.mem_cons_of_mem b hb)
    rw [List.flatMap_cons]
    refine Interleaves.block ⟨place b, h b List.mem_cons_self⟩ (f b) ?_ (fun j hj => ?_) ih
    · rw [List.filter_cons, if_pos (by simp), List.flatMap_cons]
    · have hne : (place b == j.val) = false := by
        simpa using fun he => hj (Fin.ext he.symm)
      rw [List.filter_cons, hne, if_neg Bool.false_ne_true]

/-! ## What a rule brings -/

/-- What a delivery adds to the report, and whether it ends the run. -/
def Delivery.result (d : Delivery) : List Finding × Option Violation := (d.report, d.violation?)

/-- Groups that tell the same, and in whose contexts a rule does the same. -/
structure Rule.Alike (r : Rule) (g g' : Group) : Prop where
  calls : g.calls = g'.calls
  record : g.record = g'.record
  step : ∀ call s, r.step g.context call s = r.step g'.context call s

namespace Rule

variable (r : Rule) {g g' : Group} (i j : Nat)

theorem Alike.refl (g : Group) : r.Alike g g := ⟨rfl, rfl, fun _ _ => rfl⟩

theorem part_results (h : r.Alike g g') : ∀ (calls : List Call) (s : r.State),
    (r.part i g calls s).map Delivery.result = (r.part j g' calls s).map Delivery.result ∧
    r.stateAfter g calls s = r.stateAfter g' calls s
  | [], _ => ⟨rfl, rfl⟩
  | call :: calls, s => by
    have hdeliver : (r.deliver i g call s).result = (r.deliver j g' call s).result := by
      unfold deliver
      rw [h.record, h.step call s]
      rfl
    rw [part, part, stateAfter, stateAfter, List.map_cons, List.map_cons, hdeliver, h.step call s]
    cases (r.step g'.context call s).fault.isSome with
    | true => exact ⟨rfl, rfl⟩
    | false =>
      obtain ⟨hpart, hstate⟩ := part_results h calls (r.step g'.context call s).state
      rw [if_neg Bool.false_ne_true, if_neg Bool.false_ne_true, if_neg Bool.false_ne_true, if_neg Bool.false_ne_true,
        hpart, hstate]
      exact ⟨rfl, rfl⟩

/-- **What a rule brings does not depend on its seat**, nor on anything it does not look at. -/
theorem parts_results {gs gs' : List Group} (h : List.Forall₂ r.Alike gs gs') (s : r.State) :
    (r.parts i gs s).map (List.map Delivery.result) = (r.parts j gs' s).map (List.map Delivery.result) := by
  induction h generalizing s with
  | nil => rfl
  | @cons g g' gs gs' hg _ ih =>
    obtain ⟨hpart, hstate⟩ := r.part_results i j hg g.calls s
    rw [parts, parts, List.map_cons, List.map_cons, ← hg.calls, hpart, hstate, ih]

/-- What a rule brings, group by group and call by call. -/
def results (gs : List Group) : List (List (List Finding × Option Violation)) :=
  (r.parts 0 gs r.initial).map (List.map Delivery.result)

end Rule

namespace Run

theorem results_map (gs : List Group) (seated : List (Rule × Nat)) :
    (inTurn gs (seated.map fun (r, i) => r.parts i gs r.initial)).map Delivery.result =
      inTurn gs ((seated.map Prod.fst).map (·.results gs)) := by
  rw [map_inTurn, List.map_map, List.map_map]
  exact congrArg (inTurn gs) (List.map_congr_left fun p _ =>
    p.1.parts_results p.2 0 (List.forall₂_same.2 fun g _ => .refl p.1 g) p.1.initial)

/-- **The results of a run are those of its rules in turn.** -/
theorem due_results (rules : List Rule) (gs : List Group) :
    (due rules gs).map Delivery.result = inTurn gs (rules.map (·.results gs)) := by
  rw [due, results_map, List.zipIdx_map_fst]

/-- The rules at some of the seats. -/
def selected (q : Nat → Bool) (rules : List Rule) : List Rule := (rules.zipIdx.filter (q ·.2)).map Prod.fst

theorem selected_one {rules : List Rule} {i : Nat} {r : Rule} (hr : rules[i]? = some r) :
    selected (· == i) rules = [r] := by
  obtain ⟨front, back, rfl, rfl⟩ := exists_of_getElem? hr
  rw [selected, (filter_zipIdx front r back).1]
  rfl

/-- **With some of the rules left out, what is due has the results of what is due to the others.** -/
theorem due_selected (q : Nat → Bool) (rules : List Rule) (gs : List Group) :
    (due (selected q rules) gs).map Delivery.result = ((due rules gs).filter (q ·.seat)).map Delivery.result := by
  have hseat : ∀ p ∈ rules.zipIdx, ∀ d ∈ (p.1.parts p.2 gs p.1.initial).flatten, q d.seat = q p.2 :=
    fun p _ d hd => by rw [(p.1.addressed_of_mem_parts p.2 hd).1]
  rw [due_results, selected, ← results_map]
  exact congrArg (List.map Delivery.result) (filter_inTurn gs _ _ hseat).symm

/-! ## Reports -/

section Reports

variable {settings : Settings} {rules : List Rule} {files : List RecordFile}

theorem report_eq_of_results {l l' : List Delivery} (h : l.map Delivery.result = l'.map Delivery.result) :
    l.flatMap Delivery.report = l'.flatMap Delivery.report := by
  have := congrArg (List.map Prod.fst) h
  rw [List.map_map, List.map_map] at this
  rw [List.flatMap_def, List.flatMap_def]
  exact congrArg List.flatten this

theorem kept_of_results {l l' : List Delivery} (h : l.map Delivery.result = l'.map Delivery.result)
    (hkept : ∀ d ∈ l', d.violation? = none) : ∀ d ∈ l, d.violation? = none := fun d hd => by
  obtain ⟨d', hd', hresult⟩ := List.mem_map.1 (h ▸ List.mem_map_of_mem hd)
  rw [← hkept d' hd']
  exact congrArg Prod.snd hresult.symm

/-- Runs with the same results have the same outcome. -/
theorem outcome_of_results {l : List Delivery}
    (h : (due rules (Stream.groups settings files)).map Delivery.result = l.map Delivery.result)
    (hkept : ∀ d ∈ l, d.violation? = none) :
    (Run.of settings rules files).outcome = .ok (l.flatMap Delivery.report) := by
  obtain ⟨hlog, hv⟩ := log_eq_due (kept_of_results h hkept)
  rw [outcome_eq_ok hv, report, hlog, report_eq_of_results h]

/-- **The report of a run with some of the rules is what these bring to the report with all of them.** -/
theorem outcome_selected (hkept : ∀ d ∈ (Run.of settings rules files).log, d.violation? = none) (q : Nat → Bool) :
    (Run.of settings (selected q rules) files).outcome =
      .ok (((Run.of settings rules files).log.filter (q ·.seat)).flatMap Delivery.report) := by
  have hlog := (log_eq_due_of_log hkept).1
  refine outcome_of_results ?_ fun d hd => hkept d (List.mem_of_mem_filter hd)
  rw [due_selected, hlog]

/-- Leaving out the rules of a name leaves out what they bring. -/
theorem outcome_without (hkept : ∀ d ∈ (Run.of settings rules files).log, d.violation? = none) (name : String) :
    (Run.of settings (rules.filter (·.name != name)) files).outcome =
      .ok (((Run.of settings rules files).log.filter (·.rule != name)).flatMap Delivery.report) := by
  let q : Nat → Bool := fun i => rules[i]?.any (·.name != name)
  have hrules : selected q rules = rules.filter (·.name != name) := by
    have hq : rules.zipIdx.filter (q ·.2) = rules.zipIdx.filter ((·.name != name) ∘ Prod.fst) :=
      List.filter_congr fun p hp => by
        show rules[p.2]?.any (·.name != name) = _
        rw [List.mem_zipIdx_iff_getElem?.1 hp]
        rfl
    rw [selected, hq, ← List.filter_map, List.zipIdx_map_fst]
  have hlog : (Run.of settings rules files).log.filter (q ·.seat) =
      (Run.of settings rules files).log.filter (·.rule != name) := List.filter_congr fun d hd => by
    rw [(log_eq_due_of_log hkept).1] at hd
    obtain ⟨i, r, hr, hpart⟩ := mem_due hd
    obtain ⟨hseat, hname⟩ := r.addressed_of_mem_parts i hpart
    show rules[d.seat]?.any (·.name != name) = _
    rw [hseat, hr, hname]
    rfl
  rw [← hrules, outcome_selected hkept q, hlog]

end Reports

end Run

/-! ## Groups that are alike -/

/-- Groups that tell the same, and in whose contexts all of some rules do the same. -/
def Group.Alike (rules : List Rule) (g g' : Group) : Prop := g.calls = g'.calls ∧ ∀ r ∈ rules, r.Alike g g'

theorem Group.Alike.refl (rules : List Rule) (g : Group) : Alike rules g g := ⟨rfl, fun r _ => .refl r g⟩

/-- **Rules of the library have the same outcome where they are told alike.** -/
theorem Rules.outcome_of_alike {rules : List Rule} (h : ∀ r ∈ rules, Provided r) {settings settings' : Settings}
    {files files' : List RecordFile}
    (halike : List.Forall₂ (Group.Alike rules) (Stream.groups settings files) (Stream.groups settings' files')) :
    (Run.of settings rules files).outcome = (Run.of settings' rules files').outcome := by
  have hv := (run_of_provided h settings' files').1
  have hkept := Run.kept_of_violation hv
  rw [Run.outcome_eq_ok hv]
  refine Run.outcome_of_results ?_ hkept
  have hresults : rules.map (·.results (Stream.groups settings files)) =
      rules.map (·.results (Stream.groups settings' files')) := List.map_congr_left fun r hr =>
    r.parts_results 0 0 (halike.imp fun _ _ hg => hg.2 r hr) r.initial
  rw [(Run.log_eq_due_of_log hkept).1, Run.due_results, Run.due_results, hresults]
  exact inTurn_congr (halike.imp fun _ _ hg => hg.1) _

/-! ## The number of inhabitants asked for -/

/-- The group of a run that asks for another number of inhabitants. -/
def Group.asking (least : Option Nat) (g : Group) : Group :=
  { g with context := { g.context with settings := { g.context.settings with minInhabitants := least } } }

theorem Protocol.reference_asking (least : Option Nat) (settings : Settings) (files : List RecordFile) :
    reference { settings with minInhabitants := least } files = (reference settings files).map (Group.asking least) := by
  unfold reference recordGroups fileGroups
  simp only [List.map_append, List.map_flatMap, List.map_map]
  rfl

namespace Rules

/-- **The number of inhabitants asked for is nothing to the rules of the library.** -/
theorem outcome_asking {rules : List Rule} (h : ∀ r ∈ rules, Provided r) (least : Option Nat) (settings : Settings)
    (files : List RecordFile) :
    (Run.of { settings with minInhabitants := least } rules files).outcome = (Run.of settings rules files).outcome := by
  refine outcome_of_alike h ?_
  rw [Protocol.groups_eq_reference, Protocol.groups_eq_reference, Protocol.reference_asking,
    List.forall₂_map_left_iff, List.forall₂_same]
  refine fun g _ => ⟨rfl, fun r hr => ⟨rfl, rfl, fun call s => ?_⟩⟩
  have hmode : (g.asking least).context.mode = g.context.mode := rfl
  exact step_eq_of_provided (h r hr) hmode rfl call s

theorem standard_asking_none (settings : Settings) :
    standard { settings with minInhabitants := none } = (standard settings).filter (·.name != "population") := by
  obtain ⟨mode, least, threshold, names⟩ := settings
  cases names <;> cases least <;> rfl

end Rules

namespace Run

/-- **Rules do not interfere.**  In a run without a violation each rule brings to the report what it brings alone: the
report interleaves the reports of its rules alone, and without one of the rules it is what the others bring.  So it is
without a number of inhabitants to ask for. -/
theorem rules_do_not_interfere (settings : Settings) (rules : List Rule) (files : List RecordFile)
    (hkept : ∀ d ∈ (Run.of settings rules files).log, d.violation? = none) :
    let run := Run.of settings rules files
    let alone := fun i : Fin rules.length => Run.of settings [rules[i]] files
    ((∀ i, (alone i).outcome = .ok (alone i).report) ∧ run.outcome = .ok run.report ∧
      Interleaves (fun i => (alone i).report) run.report) ∧
    (∀ front r back, rules = front ++ r :: back →
      (Run.of settings (front ++ back) files).outcome =
        .ok ((run.log.filter (·.seat != front.length)).flatMap Delivery.report)) ∧
    (Run.standard { settings with minInhabitants := none } files).outcome =
      .ok (((Run.standard settings files).log.filter (·.rule != "population")).flatMap Delivery.report) := by
  intro run alone
  have halone : ∀ i, (alone i).outcome = .ok ((run.log.filter (·.seat == i.val)).flatMap Delivery.report) := fun i => by
    have houtcome := outcome_selected hkept (· == i.val)
    rwa [selected_one (List.getElem?_eq_getElem i.isLt)] at houtcome
  have hreport : ∀ i, (run.log.filter (·.seat == i.val)).flatMap Delivery.report = (alone i).report := fun i =>
    (report_of_outcome (halone i)).symm
  refine ⟨⟨fun i => by rw [halone, hreport], outcome_eq_ok (log_eq_due_of_log hkept).2, ?_⟩, ?_, ?_⟩
  · have hseat : ∀ d ∈ run.log, d.seat < rules.length := fun d hd => by
      rw [(log_eq_due_of_log hkept).1] at hd
      obtain ⟨i, r, hr, hpart⟩ := mem_due hd
      rw [(r.addressed_of_mem_parts i hpart).1]
      exact (List.getElem?_eq_some_iff.1 hr).1
    rw [← funext hreport]
    exact interleaves_flatMap Delivery.seat Delivery.report rules.length run.log hseat
  · rintro front r back rfl
    rw [← (filter_zipIdx front r back).2]
    exact outcome_selected hkept (· != front.length)
  · have hv := (Rules.run_of_provided (Rules.provided_standard settings) settings files).1
    unfold Run.standard
    rw [Rules.standard_asking_none, Rules.outcome_asking]
    · exact outcome_without (kept_of_violation hv) "population"
    · exact fun r hr => Rules.provided_standard settings r (List.mem_of_mem_filter hr)

/-- A book that is no markup, and a script with a note on work to be done: without the rule for books what the other
rules find is left. -/
theorem malformed_book_leaves_others :
    let files := [⟨"base.json", [.book { id := "b", text := some "<" }, .script { id := "s", text := "; todo" }]⟩]
    let run := Run.of {} [Rules.books, Rules.workNotes, Rules.reachability] files
    (∀ d ∈ run.log, d.violation? = none) ∧
    (Run.of {} [Rules.workNotes, Rules.reachability] files).outcome =
      .ok ((run.log.filter (·.seat != 0)).flatMap Delivery.report) ∧
    run.report.map Finding.line = ["Book b contains malformed markup (Unfinished opening tag < at index 0)",
      "Script s contains comment todo", "Script s is never started", "Book b is not used"] ∧
    ((run.log.filter (·.seat != 0)).flatMap Delivery.report).map Finding.line =
      ["Script s contains comment todo", "Script s is never started", "Book b is not used"] := by
  intro files run
  have hkept : ∀ d ∈ run.log, d.violation? = none := by decide
  have hleft := (rules_do_not_interfere {} _ files hkept).2.1 [] Rules.books _ rfl
  exact ⟨hkept, hleft, by decide +kernel, by decide +kernel⟩

end Run

end WorldAudit
