import WorldAudit.Proofs.Audit.Lockstep
import WorldAudit.Proofs.Audit.Protocol
import WorldAudit.Rules.Standard
/-!
# Order — every call to every rule, before the next call

In a run in which no call fails, every call of the reference goes to all rules in their order before the next call is
made, and nothing else is called.
-/
namespace WorldAudit

/-- Whom a delivery went to, and what it told. -/
def Delivery.told (d : Delivery) : Nat × String × Context × Option Record × Call :=
  (d.seat, d.rule, d.context, d.record, d.call)

theorem UpToFault.map_told {i : Nat} {rule : String} {g : Group} {ds : List Delivery} (h : UpToFault i rule g ds) :
    ds.map Delivery.told = (ds.map Delivery.call).map fun call => (i, rule, g.context, g.record, call) := by
  rw [List.map_map]
  refine List.map_congr_left fun d hd => ?_
  obtain ⟨hseat, hrule, hcontext, hrecord⟩ := h.addressed d hd
  rw [Function.comp_apply, Delivery.told, hseat, hrule, hcontext, hrecord]

theorem told_of_no_fault {i : Nat} {rule : String} {gs : List Group} {ps : List (List Delivery)}
    (h : List.Forall₂ (UpToFault i rule) gs ps) (hnone : ∀ d ∈ ps.flatten, d.fault = none) :
    ps.map (List.map Delivery.told) = gs.map fun g => g.calls.map fun call => (i, rule, g.context, g.record, call) := by
  induction h with
  | nil => rfl
  | @cons g ds gs ps hds _ ih =>
    rw [List.flatten_cons] at hnone
    rw [List.map_cons, List.map_cons, ih fun d hd => hnone d (List.mem_append_right _ hd), hds.map_told,
      hds.complete fun d hd => hnone d (List.mem_append_left _ hd)]

namespace Run

/-- **Every call of the reference goes to every rule in turn before the next one**, and no other call is made.  In a
run in which no call fails the report is that of the calls one after another. -/
theorem calls_in_order (settings : Settings) (rules : List Rule) (files : List RecordFile)
    (hnone : ∀ d ∈ (Run.of settings rules files).log, d.fault = none) :
    (Run.of settings rules files).log.map Delivery.told =
      ((Protocol.reference settings files).flatMap fun g => g.calls.flatMap fun call =>
        rules.zipIdx.map fun (r, i) => (i, r.name, g.context, g.record, call)) ∧
    (Run.of settings rules files).outcome = .ok ((Run.of settings rules files).log.flatMap Delivery.findings) := by
  have hkept : ∀ d ∈ (Run.of settings rules files).log, d.violation? = none := fun d hd => by
    rw [Delivery.violation?, hnone d hd]
  obtain ⟨hlog, hv⟩ := log_eq_due_of_log hkept
  rw [Protocol.groups_eq_reference] at hlog
  refine ⟨?_, ?_⟩
  · rw [hlog] at hnone ⊢
    have hparts : (rules.zipIdx.map fun (r, i) => r.parts i (Protocol.reference settings files) r.initial).map
        (List.map (List.map Delivery.told)) = rules.zipIdx.map fun (r, i) =>
          (Protocol.reference settings files).map fun g => g.calls.map fun call =>
            (i, r.name, g.context, g.record, call) := by
      rw [List.map_map]
      refine List.map_congr_left fun p hp => told_of_no_fault (p.1.parts_upToFault p.2 _ _) fun d hd => ?_
      have hr : rules[p.2]? = some p.1 := List.mem_zipIdx_iff_getElem?.1 hp
      rw [← filter_due _ hr] at hd
      exact hnone d (List.mem_of_mem_filter hd)
    rw [due, map_inTurn, hparts]
    exact inTurn_full rules.zipIdx (fun (p : Rule × Nat) g call => (p.2, p.1.name, g.context, g.record, call)) _
  · unfold Run.outcome Run.report
    rw [hv]
    dsimp only
    have hreport : (Run.of settings rules files).log.map Delivery.report =
        (Run.of settings rules files).log.map Delivery.findings := List.map_congr_left fun d hd => by
      rw [Delivery.report, Delivery.faultFindings, hnone d hd, List.append_nil]
    rw [List.flatMap_def, List.flatMap_def, hreport]

/-- Two rules over two files, in the second of which an entry has no topic and a reference is deleted. -/
theorem two_rules_in_order :
    let dialogue : Dialogue := { id := "A1", type := .journal }
    let entry : Info := { id := "I", result := some "Journal A1 10 ; TODO" }
    let loose : Info := { id := "J" }
    let rock : Reference := { id := "Rock", deleted := some true }
    let cell : Cell := { id := "Cave", references := [rock] }
    let files := [⟨"base.json", [.dialogue dialogue, .info entry]⟩, ⟨"patch.json", [.info loose, .cell cell]⟩]
    let rules := [Rules.workNotes, Rules.reachability]
    let base : Context := ⟨{}, "base.json", false⟩
    let patch : Context := ⟨{}, "patch.json", true⟩
    (∀ d ∈ (Run.of {} rules files).log, d.fault = none) ∧
    (Run.of {} rules files).log.map Delivery.told =
      [(base, some (.dialogue dialogue), Call.record (.dialogue dialogue) "a1"),
        (base, some (.info entry), .record (.info entry) "i"),
        (base, some (.info entry), .info entry (some dialogue)),
        (base, some (.info entry), .scriptLine (.info entry) ⟨"journal a1 10", "TODO"⟩ (some dialogue)),
        (patch, some (.info loose), .record (.info loose) "j"),
        (patch, some (.info loose), .info loose none),
        (patch, some (.cell cell), .record (.cell cell) "cave"),
        (patch, some (.cell cell), .reference cell rock "rock" 0),
        (patch, none, .finish)].flatMap fun (context, record, call) =>
          [(0, "comments", context, record, call), (1, "reachability", context, record, call)] := by
  intro dialogue entry loose rock cell files rules base patch
  have hnone : ∀ d ∈ (Run.of {} rules files).log, d.fault = none := by decide +kernel
  have hgroups : Protocol.reference {} files =
      [⟨base, some (.dialogue dialogue), [.record (.dialogue dialogue) (Text.lower "A1")]⟩,
        ⟨base, some (.info entry), .record (.info entry) (Text.lower "I") :: .info entry (some dialogue) ::
          (Script.lines "Journal A1 10 ; TODO").map fun line => .scriptLine (.info entry) line (some dialogue)⟩,
        ⟨patch, some (.info loose), .record (.info loose) (Text.lower "J") :: .info loose none ::
          (Script.lines "").map fun line => .scriptLine (.info loose) line none⟩,
        ⟨patch, some (.cell cell), [.record (.cell cell) (Text.lower "Cave"),
          .reference cell rock (Text.lower "Rock") 0]⟩,
        ⟨patch, none, [.finish]⟩] := rfl
  have hkeys : Text.lower "A1" = "a1" ∧ Text.lower "I" = "i" ∧ Text.lower "J" = "j" ∧ Text.lower "Cave" = "cave" ∧
      Text.lower "Rock" = "rock" := by decide +kernel
  have hlines : Script.lines "Journal A1 10 ; TODO" = [⟨"journal a1 10", "TODO"⟩] ∧ Script.lines "" = [] := by
    decide +kernel
  have htold := (calls_in_order {} rules files hnone).1
  rw [hgroups, hkeys.1, hkeys.2.1, hkeys.2.2.1, hkeys.2.2.2.1, hkeys.2.2.2.2, hlines.1, hlines.2] at htold
  exact ⟨hnone, htold⟩

end Run
end WorldAudit
