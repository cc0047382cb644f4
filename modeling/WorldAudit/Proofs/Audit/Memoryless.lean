import WorldAudit.Proofs.Audit.Lockstep
import WorldAudit.Proofs.Audit.Protocol
/-!
# Memoryless — rules that judge call by call

A rule that remembers nothing says the same of a call wherever it comes.  What such a rule brings to a report is what it
says of all calls one after another (`Run.report_of_judges`), provided that it would say no more of a record on which it
has failed.
-/
namespace WorldAudit

namespace Protocol

/-- The calls that files give rise to, in their order, the end last. -/
def calls (files : List RecordFile) : List Call :=
  (files.flatMap fun file => file.records.zipIdx.flatMap fun (record, j) => callsOf (topicAt file.records j) record) ++
    [.finish]

theorem calls_reference (settings : Settings) (files : List RecordFile) :
    (reference settings files).flatMap Group.calls = calls files := by
  have hfile : ∀ (ctx : Context) (records : List Record), (fileGroups ctx records).flatMap Group.calls =
      records.zipIdx.flatMap fun (record, j) => callsOf (topicAt records j) record := fun ctx records => by
    rw [fileGroups, List.flatMap_map]
  rw [reference, List.flatMap_append, recordGroups, List.flatMap_assoc, calls]
  refine congrArg (· ++ [Call.finish]) ?_
  conv => rhs; rw [← List.zipIdx_map_fst 0 files, List.flatMap_map]
  exact congrArg (List.flatMap · _) (funext fun p => hfile _ _)

/-- Where topics do not matter, what calls give is what the records give. -/
theorem flatMap_calls {α : Type} {f : Call → List α} {k : Record → List α} (hfinish : f .finish = [])
    (h : ∀ topic record, (callsOf topic record).flatMap f = k record) (files : List RecordFile) :
    (calls files).flatMap f = (files.flatMap (·.records)).flatMap k := by
  rw [calls, List.flatMap_append, List.flatMap_singleton, hfinish, List.append_nil, List.flatMap_assoc,
    List.flatMap_assoc]
  refine congrArg (List.flatMap · files) (funext fun file => ?_)
  rw [List.flatMap_assoc]
  conv => rhs; rw [← List.zipIdx_map_fst 0 file.records, List.flatMap_map]
  exact congrArg (List.flatMap · _) (funext fun p => h _ p.1)

end Protocol

namespace Rule

/-- **A rule that judges the calls of a group by themselves**: what it says of a call does not depend on its state, and
after a call that it fails on it would say nothing more. -/
structure Judges (r : Rule) (verdict : Call → List Finding) (g : Group) : Prop where
  report : ∀ call ∈ g.calls, ∀ i s, (r.deliver i g call s).report = verdict call
  settled : g.calls.Pairwise fun call next => (∃ s, (r.step g.context call s).fault.isSome = true) → verdict next = []

variable {r : Rule} {verdict : Call → List Finding} {g : Group}

/-- So it is with a rule that never fails and finds the same of a call whatever its state. -/
theorem judges_of_no_fault (hfault : ∀ ctx call s, (r.step ctx call s).fault = none)
    (hfindings : ∀ call s, (r.step g.context call s).findings = verdict call) : r.Judges verdict g where
  report call _ i s := by
    rw [deliver, Delivery.report, Delivery.faultFindings]
    simp only [hfindings, hfault, List.append_nil]
  settled := List.pairwise_of_forall fun call next ⟨s, hs⟩ => by simp [hfault g.context call s] at hs

theorem report_part (i : Nat) : ∀ (calls : List Call) (s : r.State),
    (∀ call ∈ calls, ∀ i s, (r.deliver i g call s).report = verdict call) →
    calls.Pairwise (fun call next => (∃ s, (r.step g.context call s).fault.isSome = true) → verdict next = []) →
    (r.part i g calls s).flatMap Delivery.report = calls.flatMap verdict
  | [], _, _, _ => rfl
  | call :: calls, s, hreport, hsettled => by
    obtain ⟨hnext, hsettled⟩ := List.pairwise_cons.1 hsettled
    rw [part, List.flatMap_cons, List.flatMap_cons, hreport call List.mem_cons_self]
    refine congrArg (verdict call ++ ·) ?_
    by_cases hfault : (r.step g.context call s).fault.isSome = true
    · rw [if_pos hfault, List.flatMap_eq_nil_iff.2 fun next hn => hnext next hn ⟨s, hfault⟩]
      rfl
    · rw [if_neg hfault]
      exact report_part i calls _ (fun c hc => hreport c (List.mem_cons_of_mem call hc)) hsettled

theorem report_parts (i : Nat) : ∀ (gs : List Group) (s : r.State), (∀ g ∈ gs, r.Judges verdict g) →
    (r.parts i gs s).flatten.flatMap Delivery.report = (gs.flatMap Group.calls).flatMap verdict
  | [], _, _ => rfl
  | g :: gs, s, h => by
    have hg := h g List.mem_cons_self
    rw [parts, List.flatten_cons, List.flatMap_append, report_part i g.calls s hg.report hg.settled,
      report_parts i gs _ fun g' hg' => h g' (List.mem_cons_of_mem g hg'), List.flatMap_cons, List.flatMap_append]

/-- A rule that never fails is told every call. -/
theorem map_call_parts (hfault : ∀ ctx call s, (r.step ctx call s).fault = none) (i : Nat) :
    ∀ (gs : List Group) (s : r.State), (r.parts i gs s).flatten.map Delivery.call = gs.flatMap Group.calls
  | [], _ => rfl
  | g :: gs, s => by
    have hnone : ∀ d ∈ r.part i g g.calls s, d.fault = none := fun d hd => by
      obtain ⟨call, _, s', rfl⟩ := r.exists_call_of_mem_part i g hd
      exact hfault g.context call s'
    rw [parts, List.flatten_cons, List.map_append, r.part_complete i g g.calls s hnone, map_call_parts hfault i gs,
      List.flatMap_cons]

end Rule

namespace Run

variable {settings : Settings} {files : List RecordFile} {r : Rule} {verdict : Call → List Finding}
  (h : ∀ g ∈ Protocol.reference settings files, r.Judges verdict g)

include h

/-- **What a rule that judges call by call brings to a report**, at its seat in any run that is not ended. -/
theorem report_of_judges {rules : List Rule} {i : Nat} (hr : rules[i]? = some r)
    (hkept : ∀ d ∈ (Run.of settings rules files).log, d.violation? = none) :
    ((Run.of settings rules files).log.filter (·.seat == i)).flatMap Delivery.report =
      (Protocol.calls files).flatMap verdict := by
  rw [(log_eq_due_of_log hkept).1, filter_due _ hr, Protocol.groups_eq_reference, Rule.report_parts i _ _ h,
    Protocol.calls_reference]

/-- **The report of such a rule alone.** -/
theorem outcome_of_judges (hkept : ∀ d ∈ (Run.of settings [r] files).log, d.violation? = none) :
    (Run.of settings [r] files).outcome = .ok ((Protocol.calls files).flatMap verdict) := by
  obtain ⟨hlog, hv⟩ := log_eq_due_of_log hkept
  rw [outcome_eq_ok hv, report, hlog, due_singleton, Protocol.groups_eq_reference, Rule.report_parts 0 _ _ h,
    Protocol.calls_reference]

omit h in
/-- **What a rule that never fails is told**, at its seat in any run that is not ended: every call. -/
theorem map_call_of_no_fault (hfault : ∀ ctx call s, (r.step ctx call s).fault = none) {rules : List Rule} {i : Nat}
    (hr : rules[i]? = some r) (hkept : ∀ d ∈ (Run.of settings rules files).log, d.violation? = none) :
    ((Run.of settings rules files).log.filter (·.seat == i)).map Delivery.call = Protocol.calls files := by
  rw [(log_eq_due_of_log hkept).1, filter_due _ hr, Protocol.groups_eq_reference, Rule.map_call_parts hfault,
    Protocol.calls_reference]

end Run

end WorldAudit
