import WorldAudit.Proofs.Audit.Lockstep
import WorldAudit.Proofs.Audit.Protocol
import WorldAudit.Rules.Standard
/-!
# Isolation — a rule fails alone

A rule that fails on a record misses the rest of that record's calls and nothing else, and the other rules do not
notice.
-/
namespace WorldAudit

def Call.isFinish : Call → Bool
  | .finish => true
  | _ => false

/-- The finding that a failed call leaves in the report: about the record at hand, and at the end about the rule. -/
def Delivery.errorFinding? (d : Delivery) : Option Finding :=
  d.fault.map fun fault =>
    match d.record with
    | some record => ⟨record.kind.name, record.subject, fault.message⟩
    | none => ⟨"Rule", d.rule, fault.message⟩

theorem Delivery.report_eq {d : Delivery} (h : d.violation? = none) :
    d.report = d.findings ++ d.errorFinding?.toList := by
  obtain ⟨_, _, _, record, _, _, fault⟩ := d
  cases fault with
  | none => rfl
  | some fault => cases fault <;> cases record <;> first | rfl | cases h

theorem Rule.finish_parts (r : Rule) (i : Nat) (settings : Settings) (files : List RecordFile) :
    ((r.parts i (Protocol.reference settings files) r.initial).flatten.filter (·.call.isFinish)).length = 1 := by
  have hfront : (r.parts i (Protocol.recordGroups settings files) r.initial).flatten.filter (·.call.isFinish) = [] :=
    List.filter_eq_nil_iff.2 fun d hd => by
      obtain ⟨ds, hds, hd⟩ := List.mem_flatten.1 hd
      obtain ⟨g, hg, h⟩ := r.mem_parts i _ r.initial ds hds
      have hc : d.call ∈ g.calls := h.calls.subset (List.mem_map_of_mem hd)
      intro hfinish
      cases hcall : d.call with
      | finish => rw [hcall] at hc; exact Protocol.finish_notMem_recordGroups settings files g hg hc
      | _ => rw [hcall] at hfinish; cases hfinish
  rw [Protocol.reference, r.parts_concat, List.flatten_append, List.filter_append, hfront, List.nil_append]
  unfold Protocol.lastGroup
  rw [Rule.part, Rule.part, ite_self]
  rfl

namespace Run

/-- **A rule that fails is passed over for the rest of the record, and that is all.**  In a run without a violation
the report is that of the deliveries one after another, each with the finding of its failure right after its own ones;
the deliveries are those due, in the order of calls and of rules; and of them each rule gets its own part, whatever the
other rules do: on every record the calls up to its first failure, and the end once. -/
theorem faults_are_isolated (settings : Settings) (rules : List Rule) (files : List RecordFile)
    (hkept : ∀ d ∈ (Run.of settings rules files).log, d.violation? = none) :
    let gs := Protocol.reference settings files
    let run := Run.of settings rules files
    run.outcome = .ok (run.log.flatMap fun d => d.findings ++ d.errorFinding?.toList) ∧
    run.log = due rules gs ∧
    ∀ i r, rules[i]? = some r →
      run.log.filter (·.seat == i) = (r.parts i gs r.initial).flatten ∧
      List.Forall₂ (UpToFault i r.name) gs (r.parts i gs r.initial) ∧
      (∀ ds ∈ r.parts i gs r.initial, (ds.filter (·.fault.isSome)).length ≤ 1) ∧
      (run.log.filter fun d => d.call.isFinish && d.seat == i).length = 1 := by
  intro gs run
  obtain ⟨hlog, hv⟩ := log_eq_due_of_log hkept
  rw [Protocol.groups_eq_reference] at hlog
  have hreport : run.report = run.log.flatMap fun d => d.findings ++ d.errorFinding?.toList := by
    unfold Run.report
    rw [List.flatMap_def, List.flatMap_def, List.map_congr_left fun d hd => Delivery.report_eq (hkept d hd)]
  refine ⟨?_, hlog, fun i r hr => ?_⟩
  · unfold Run.outcome
    rw [hv, ← hreport]
  · have hown : run.log.filter (·.seat == i) = (r.parts i gs r.initial).flatten := by
      rw [hlog]
      exact filter_due gs hr
    refine ⟨hown, r.parts_upToFault i gs r.initial, fun ds hds => ?_, ?_⟩
    · obtain ⟨g, _, h⟩ := r.mem_parts i gs r.initial ds hds
      exact h.faults_le_one
    · rw [← List.filter_filter, hown]
      exact r.finish_parts i settings files

/-- A book that is no markup, and a rule that fails on every reference and at the end: it misses the second reference
of a cell.  The other rules hear of everything. -/
theorem malformed_book_is_isolated :
    let book : Book := { id := "Tome", text := some "<" }
    let rock : Reference := { id := "Rock" }
    let tome : Reference := { id := "Tome" }
    let cell : Cell := { id := "Cave", data := { flags := 1 }, references := [rock, tome] }
    let files := [⟨"base.json", [.book book, .cell cell]⟩]
    let strict : Rule := .stateless "strict" fun _ call =>
      match call with
      | .reference cell r _ _ => ([⟨"Cell", cell.id, "holds " ++ r.id⟩], some (.invalid "is not empty"))
      | .finish => ([], some (.invalid "is late"))
      | _ => ([], none)
    let run := Run.of {} [Rules.books, strict, Rules.reachability] files
    (∀ d ∈ run.log, d.violation? = none) ∧
    run.outcome = .ok [⟨"Book", "Tome", "contains malformed markup (Unfinished opening tag < at index 0)"⟩,
      ⟨"Cell", "Cave", "holds Rock"⟩, ⟨"Cell", "Cave", "is not empty"⟩, ⟨"Rule", "strict", "is late"⟩] ∧
    (run.log.filter (·.seat == 0)).map Delivery.call = [.record (.book book) "tome", .record (.cell cell) "cave",
      .reference cell rock "rock" 0, .reference cell tome "tome" 1, .finish] ∧
    (run.log.filter (·.seat == 1)).map Delivery.call = [.record (.book book) "tome", .record (.cell cell) "cave",
      .reference cell rock "rock" 0, .finish] ∧
    (run.log.filter (·.seat == 2)).map Delivery.call = [.record (.book book) "tome", .record (.cell cell) "cave",
      .reference cell rock "rock" 0, .reference cell tome "tome" 1, .finish] := by
  intro book rock tome cell files strict run
  have hkept : ∀ d ∈ run.log, d.violation? = none := by decide +kernel
  obtain ⟨houtcome, -, hown⟩ := faults_are_isolated {} [Rules.books, strict, Rules.reachability] files hkept
  have hgroups : Protocol.reference {} files =
      [⟨⟨{}, "base.json", true⟩, some (.book book), [.record (.book book) (Text.lower "Tome")]⟩,
        ⟨⟨{}, "base.json", true⟩, some (.cell cell), [.record (.cell cell) (Text.lower "Cave"),
          .reference cell rock (Text.lower "Rock") 0, .reference cell tome (Text.lower "Tome") 1]⟩,
        ⟨⟨{}, "base.json", true⟩, none, [.finish]⟩] := rfl
  have hkeys : Text.lower "Tome" = "tome" ∧ Text.lower "Cave" = "cave" ∧ Text.lower "Rock" = "rock" := by
    decide +kernel
  rw [hkeys.1, hkeys.2.1, hkeys.2.2] at hgroups
  refine ⟨hkept, houtcome.trans (congrArg Except.ok (by decide +kernel)), ?_, ?_, ?_⟩
  · -- nothing follows the book in its own group, whether or not the rule fails on it
    rw [(hown 0 Rules.books rfl).1, hgroups, Rule.parts, Rule.part, Rule.part, ite_self]
    rfl
  · rw [(hown 1 strict rfl).1, hgroups]
    rfl
  · rw [(hown 2 Rules.reachability rfl).1, hgroups]
    rfl

end Run
end WorldAudit
