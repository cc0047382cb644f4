import WorldAudit.Proofs.Audit.Lockstep
import WorldAudit.Proofs.Reachability.Ledger
/-!
# Gathering — the facts of a whole run

Up to the end the rule for reachability only gathers: it finds nothing, it never fails, and its state holds the facts
of all calls so far.  A run of it alone therefore reports the orphans of all facts of the stream
(`outcome_reachability`).
-/
namespace WorldAudit
namespace Rules

namespace Fact

/-- The facts of a record of a topic. -/
def ofRecord (mode : Option Mode) (topic : Option Dialogue) (record : Record) : List Fact :=
  (Protocol.callsOf topic record).flatMap (ofCall mode)

/-- The facts of the records of a file, in their order. -/
def ofFile (mode : Option Mode) (records : List Record) : List Fact :=
  records.zipIdx.flatMap fun (record, j) => ofRecord mode (Protocol.topicAt records j) record

/-- The facts of files, in their order. -/
def ofFiles (mode : Option Mode) (files : List RecordFile) : List Fact :=
  files.flatMap fun file => ofFile mode file.records

end Fact

/-- The state of the rule once it has gathered facts, latest first, and before it is told of the end. -/
def gathered (facts : List Fact) : reachability.State := ReachabilityState.mk facts false

theorem step_gathered (ctx : Context) {call : Call} (h : call ≠ .finish) (facts : List Fact) :
    reachability.step ctx call (gathered facts) =
      { state := gathered ((Fact.ofCall ctx.mode call).reverse ++ facts) } := by
  cases call <;> first | rfl | exact absurd rfl h

/-- A delivery that brings neither a finding nor a failure. -/
def Silent (d : Delivery) : Prop := d.findings = [] ∧ d.fault = none

theorem silent_part (i : Nat) (g : Group) : ∀ (calls : List Call) (facts : List Fact), Call.finish ∉ calls →
    ∀ d ∈ reachability.part i g calls (gathered facts), Silent d
  | [], _, _, _, hd => by cases hd
  | call :: calls, facts, h, d, hd => by
    have hstep := step_gathered g.context (fun e => h (e ▸ List.mem_cons_self)) facts
    rw [Rule.part, hstep] at hd
    rcases List.mem_cons.1 hd with rfl | hd
    · rw [Rule.deliver, hstep]
      exact ⟨rfl, rfl⟩
    · exact silent_part i g calls _ (fun hm => h (List.mem_cons_of_mem _ hm)) d hd

theorem stateAfter_gathered (g : Group) : ∀ (calls : List Call) (facts : List Fact), Call.finish ∉ calls →
    reachability.stateAfter g calls (gathered facts) =
      gathered ((calls.flatMap (Fact.ofCall g.context.mode)).reverse ++ facts)
  | [], _, _ => rfl
  | call :: calls, facts, h => by
    rw [Rule.stateAfter, step_gathered g.context (fun e => h (e ▸ List.mem_cons_self)) facts]
    show reachability.stateAfter g calls _ = _
    rw [stateAfter_gathered g calls _ fun hm => h (List.mem_cons_of_mem _ hm), List.flatMap_cons, List.reverse_append,
      List.append_assoc]

theorem silent_parts (i : Nat) : ∀ (gs : List Group) (facts : List Fact), (∀ g ∈ gs, Call.finish ∉ g.calls) →
    ∀ d ∈ (reachability.parts i gs (gathered facts)).flatten, Silent d
  | [], _, _, _, hd => by cases hd
  | g :: gs, facts, h, d, hd => by
    have hg := h g List.mem_cons_self
    rw [Rule.parts, stateAfter_gathered g g.calls facts hg, List.flatten_cons] at hd
    rcases List.mem_append.1 hd with hd | hd
    · exact silent_part i g g.calls facts hg d hd
    · exact silent_parts i gs _ (fun g' hg' => h g' (List.mem_cons_of_mem _ hg')) d hd

/-- **The state holds the facts of all calls so far.** -/
theorem stateAfterAll_gathered : ∀ (gs : List Group) (facts : List Fact), (∀ g ∈ gs, Call.finish ∉ g.calls) →
    reachability.stateAfterAll gs (gathered facts) =
      gathered ((gs.flatMap fun g => g.calls.flatMap (Fact.ofCall g.context.mode)).reverse ++ facts)
  | [], _, _ => rfl
  | g :: gs, facts, h => by
    show reachability.stateAfterAll gs (reachability.stateAfter g g.calls (gathered facts)) = _
    rw [stateAfter_gathered g g.calls facts (h g List.mem_cons_self),
      stateAfterAll_gathered gs _ fun g' hg' => h g' (List.mem_cons_of_mem _ hg'), List.flatMap_cons,
      List.reverse_append, List.append_assoc]

theorem flatMap_zipIdx_map {α β γ : Type} {c : α × Nat → β} {f : β → List γ} {g : α → List γ}
    (h : ∀ p, f (c p) = g p.1) (l : List α) : (l.zipIdx.map c).flatMap f = l.flatMap g := by
  rw [List.flatMap_map]
  conv => rhs; rw [← List.zipIdx_map_fst 0 l, List.flatMap_map]
  exact congrArg (List.flatMap · _) (funext h)

theorem facts_recordGroups (settings : Settings) (files : List RecordFile) :
    ((Protocol.recordGroups settings files).flatMap fun g => g.calls.flatMap (Fact.ofCall g.context.mode)) =
      Fact.ofFiles settings.mode files := by
  have hfile : ∀ (ctx : Context) (records : List Record), ctx.mode = settings.mode →
      ((Protocol.fileGroups ctx records).flatMap fun g => g.calls.flatMap (Fact.ofCall g.context.mode)) =
        Fact.ofFile settings.mode records := fun ctx records h => by
    rw [Protocol.fileGroups, List.flatMap_map, Fact.ofFile, ← h]
    rfl
  rw [Protocol.recordGroups, List.flatMap_assoc, Fact.ofFiles]
  conv => rhs; rw [← List.zipIdx_map_fst 0 files, List.flatMap_map]
  exact congrArg (List.flatMap · _) (funext fun p => hfile _ _ rfl)

/-- What the rule says of files: nothing up to the end, and then the orphans of all facts. -/
theorem reachability_parts (i : Nat) (settings : Settings) (files : List RecordFile) : ∃ front last,
    (reachability.parts i (Protocol.reference settings files) reachability.initial).flatten = front ++ [last] ∧
    (∀ d ∈ front, Silent d) ∧ last.findings = orphans (Fact.ofFiles settings.mode files) ∧ last.fault = none := by
  have hnone := Protocol.finish_notMem_recordGroups settings files
  have hstate := stateAfterAll_gathered (Protocol.recordGroups settings files) [] hnone
  rw [List.append_nil, facts_recordGroups] at hstate
  refine ⟨(reachability.parts i (Protocol.recordGroups settings files) (gathered [])).flatten,
    reachability.deliver i (Protocol.lastGroup settings files) .finish
      (gathered (Fact.ofFiles settings.mode files).reverse), ?_, silent_parts i _ [] hnone, ?_, rfl⟩
  · show (reachability.parts i _ (gathered [])).flatten = _
    rw [Protocol.reference, reachability.parts_concat, hstate, List.flatten_append]
    unfold Protocol.lastGroup
    rw [Rule.part, Rule.part, ite_self]
    rfl
  · show orphans (List.reverse (List.reverse _)) = _
    rw [List.reverse_reverse]

/-- **A run of the rule alone reports the orphans of all facts of the files.** -/
theorem outcome_reachability (settings : Settings) (files : List RecordFile) :
    (Run.of settings [reachability] files).outcome = .ok (orphans (Fact.ofFiles settings.mode files)) := by
  obtain ⟨front, last, hparts, hfront, hfindings, hfault⟩ := reachability_parts 0 settings files
  have hdue : Run.due [reachability] (Stream.groups settings files) = front ++ [last] := by
    rw [Protocol.groups_eq_reference, Run.due_singleton, hparts]
  have hsilent : ∀ d ∈ front ++ [last], d.fault = none := fun d hd => by
    rcases List.mem_append.1 hd with hd | hd
    · exact (hfront d hd).2
    · rw [List.mem_singleton.1 hd]; exact hfault
  have hreport : ∀ d ∈ front ++ [last], d.report = d.findings := fun d hd => by
    rw [Delivery.report, Delivery.faultFindings, hsilent d hd, List.append_nil]
  have hnone : ∀ d ∈ Run.due [reachability] (Stream.groups settings files), d.violation? = none := fun d hd => by
    rw [Delivery.violation?, hsilent d (hdue ▸ hd)]
  obtain ⟨hlog, hv⟩ := Run.log_eq_due hnone
  unfold Run.outcome Run.report
  rw [hv, hlog, hdue, List.flatMap_def, List.map_congr_left hreport, ← List.flatMap_def, List.flatMap_append,
    List.flatMap_eq_nil_iff.2 fun d hd => (hfront d hd).1, List.flatMap_singleton, hfindings, List.nil_append]

end Rules
end WorldAudit
