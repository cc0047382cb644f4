import WorldAudit.Proofs.Reachability.Gathering
import WorldAudit.Rules.Standard
/-!
# Conduct — how the rules of the library behave in a run

None of them ends a run, however many of them there are and in whatever order.  Only the rule for books fails at all, at
books whose text is no markup (`fault_of_provided`).  Of what a run is asked to check they look at the mode only
(`step_eq_of_provided`), and unless they count inhabitants that is all they know of it (`step_eq_of_mode`).
-/
namespace WorldAudit
namespace Rules

/-- **The rules of the library**, with any limits. -/
inductive Provided : Rule → Prop
  | books : Provided books
  | workNotes : Provided workNotes
  | typography : Provided typography
  | duplicates (threshold : Number.Single) : Provided (duplicates threshold)
  | levelledLists : Provided levelledLists
  | populated (least : Nat) : Provided (populated least)
  | reachability : Provided reachability
  | similarNames : Provided similarNames

theorem provided_standard (settings : Settings) : ∀ r ∈ standard settings, Provided r := by
  intro r hr
  unfold standard at hr
  split at hr
  · rw [List.mem_singleton.1 hr]
    exact .similarNames
  · rcases List.mem_append.1 hr with hr | hr
    · rcases List.mem_append.1 hr with hr | hr
      · simp only [List.mem_cons, List.not_mem_nil, or_false] at hr
        rcases hr with rfl | rfl | rfl | rfl | rfl
        · exact .books
        · exact .workNotes
        · exact .typography
        · exact .duplicates settings.duplicateThreshold
        · exact .levelledLists
      · obtain ⟨least, _, rfl⟩ := Option.map_eq_some_iff.1 (Option.mem_toList.1 hr)
        exact .populated least
    · rw [List.mem_singleton.1 hr]
      exact .reachability

/-! ## Failures -/

theorem fault_step_books (ctx : Context) (call : Call) (s : books.State) {fault : Rule.Fault}
    (h : (books.step ctx call s).fault = some fault) :
    ∃ book id markupFault, call = .record (.book book) id ∧ fault = .markup markupFault := by
  cases call with
  | record record id =>
    cases record with
    | book book =>
      simp only [books, Rule.stateless] at h
      split at h
      · cases h
      · split at h
        · rename_i markupFault _
          cases h
          exact ⟨book, id, markupFault, rfl, rfl⟩
        · cases h
    | _ => cases h
  | _ => cases h

/-- Apart from the rules for books and for reachability, no rule of the library ever fails. -/
theorem fault_step_of_provided {r : Rule} (h : Provided r) (hbooks : r ≠ books) (hreach : r ≠ reachability)
    (ctx : Context) (call : Call) (s : r.State) : (r.step ctx call s).fault = none := by
  cases h with
  | books => exact absurd rfl hbooks
  | reachability => exact absurd rfl hreach
  | workNotes =>
    cases call with
    | scriptLine owner line topic =>
      simp only [workNotes, Rule.stateless]
      split <;> rfl
    | _ => rfl
  | typography => cases call <;> rfl
  | duplicates threshold => cases call <;> rfl
  | levelledLists =>
    cases call with
    | record record id =>
      cases record with
      | levelled kind list =>
        simp only [levelledLists, levelledStep]
        split <;> rfl
      | _ => rfl
    | _ => rfl
  | populated least =>
    cases call with
    | record record id =>
      simp only [populated, populationStep]
      split
      · rename_i grid heq _
        split <;> rfl
      · split <;> rfl
      · split <;> rfl
      · rfl
      · rfl
    | _ => rfl
  | similarNames =>
    cases call with
    | record record id =>
      cases record with
      | actor kind actor =>
        cases kind with
        | npc =>
          simp only [similarNames, similarNamesStep]
          split <;> rfl
        | _ => rfl
      | _ => rfl
    | _ => rfl

/-- So it never fails if its name is not theirs. -/
theorem fault_step_of_name {r : Rule} (h : Provided r) {name : String} (hname : r.name = name)
    (hother : name ≠ books.name ∧ name ≠ reachability.name) (ctx : Context) (call : Call) (s : r.State) :
    (r.step ctx call s).fault = none := by
  subst hname
  exact fault_step_of_provided h (ne_of_apply_ne Rule.name hother.1) (ne_of_apply_ne Rule.name hother.2) ctx call s

/-- **Only the rule for books fails in a run**, and only at books whose text is no markup.  The rule for reachability
would fail if it were called after the end, but the end is the last of all calls. -/
theorem fault_of_provided {r : Rule} (h : Provided r) {i : Nat} {settings : Settings} {files : List RecordFile}
    {d : Delivery} (hd : d ∈ (r.parts i (Protocol.reference settings files) r.initial).flatten) {fault : Rule.Fault}
    (hfault : d.fault = some fault) :
    r = books ∧ ∃ book markupFault, d.record = some (.book book) ∧ fault = .markup markupFault := by
  obtain ⟨g, hg, call, hc, s, rfl⟩ := r.exists_call_of_mem_parts i hd
  by_cases hbooks : r = books
  · subst hbooks
    obtain ⟨book, id, markupFault, rfl, rfl⟩ := fault_step_books g.context call s hfault
    exact ⟨rfl, book, markupFault, Protocol.record_of_mem_calls g hg (.book book) id hc, rfl⟩
  · by_cases hreach : r = reachability
    · subst hreach
      obtain ⟨front, last, hparts, hfront, _, hlast⟩ := reachability_parts i settings files
      rw [hparts] at hd
      rcases List.mem_append.1 hd with hd | hd
      · rw [(hfront _ hd).2] at hfault
        cases hfault
      · rw [List.mem_singleton.1 hd, hlast] at hfault
        cases hfault
    · have hnone := fault_step_of_provided h hbooks hreach g.context call s
      rw [show (r.deliver i g call s).fault = (r.step g.context call s).fault from rfl, hnone] at hfault
      cases hfault

/-- **A run of rules of the library is never ended**, and only its books fail. -/
theorem run_of_provided {rules : List Rule} (h : ∀ r ∈ rules, Provided r) (settings : Settings)
    (files : List RecordFile) :
    (Run.of settings rules files).violation = none ∧
    ∀ d ∈ (Run.of settings rules files).log, ∀ fault, d.fault = some fault →
      rules[d.seat]? = some books ∧ ∃ book markupFault, d.record = some (.book book) ∧ fault = .markup markupFault := by
  have hfault : ∀ d ∈ Run.due rules (Stream.groups settings files), ∀ fault, d.fault = some fault →
      rules[d.seat]? = some books ∧
        ∃ book markupFault, d.record = some (.book book) ∧ fault = .markup markupFault := fun d hd fault hf => by
    rw [Protocol.groups_eq_reference] at hd
    obtain ⟨i, r, hr, hpart⟩ := Run.mem_due hd
    obtain ⟨rfl, hbook⟩ := fault_of_provided (h r (List.mem_of_getElem? hr)) hpart hf
    rw [(books.addressed_of_mem_parts i hpart).1]
    exact ⟨hr, hbook⟩
  have hkept : ∀ d ∈ Run.due rules (Stream.groups settings files), d.violation? = none := fun d hd => by
    rw [Delivery.violation?]
    split
    · rename_i reason hf
      obtain ⟨_, _, _, _, hmarkup⟩ := hfault d hd _ hf
      cases hmarkup
    · rfl
  obtain ⟨hlog, hv⟩ := Run.log_eq_due hkept
  refine ⟨hv, fun d hd => hfault d ?_⟩
  rw [← hlog]
  exact hd

theorem violation_alone {r : Rule} (h : Provided r) (settings : Settings) (files : List RecordFile) :
    (Run.of settings [r] files).violation = none :=
  (run_of_provided (List.forall_mem_singleton.2 h) settings files).1

theorem violation_standard (asked settings : Settings) (files : List RecordFile) :
    (Run.of settings (standard asked) files).violation = none :=
  (run_of_provided (provided_standard asked) settings files).1

theorem outcome_of_provided {rules : List Rule} (h : ∀ r ∈ rules, Provided r) (settings : Settings)
    (files : List RecordFile) : (Run.of settings rules files).outcome = .ok (Run.of settings rules files).report :=
  Run.outcome_eq_ok (run_of_provided h settings files).1

theorem outcome_standard (settings : Settings) (files : List RecordFile) :
    (Run.standard settings files).outcome = .ok (Run.standard settings files).report :=
  outcome_of_provided (provided_standard settings) settings files

/-! ## What the rules know of a run -/

/-- **Without a count of inhabitants the rules of the library know of a run only its mode.** -/
theorem step_eq_of_mode {r : Rule} (h : Provided r) (hname : r.name ≠ "population") {ctx ctx' : Context}
    (hmode : ctx.mode = ctx'.mode) (call : Call) (s : r.State) : r.step ctx call s = r.step ctx' call s := by
  cases h with
  | populated least => exact absurd rfl hname
  | reachability =>
    show reachabilityStep ctx call s = reachabilityStep ctx' call s
    unfold reachabilityStep
    rw [hmode]
  | _ => rfl

/-- **The rules of the library know of a run only its mode and whether the file is the last one.** -/
theorem step_eq_of_provided {r : Rule} (h : Provided r) {ctx ctx' : Context} (hmode : ctx.mode = ctx'.mode)
    (hlast : ctx.isLast = ctx'.isLast) (call : Call) (s : r.State) : r.step ctx call s = r.step ctx' call s := by
  cases h with
  | populated least =>
    show populationStep least ctx call s = populationStep least ctx' call s
    unfold populationStep
    rw [hlast]
  | reachability => exact step_eq_of_mode .reachability (by decide) hmode call s
  | _ => rfl

end Rules
end WorldAudit
