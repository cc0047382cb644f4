import WorldAudit.Proofs.Audit.Order
import WorldAudit.Proofs.Audit.Pardon
/-!
# Violation — what ends a run

A run ends with the first call that finds the calls out of order, and such a call is always its end
(`violations_end_runs`).  A call that is passed over ends nothing, whatever the answer to it would have been
(`due_strict`).
-/
namespace WorldAudit

theorem upTo_begins {α : Type} (p : α → Bool) : ∀ (l : List α), upTo p l <+: l
  | [] => List.prefix_rfl
  | a :: l => by
    rw [upTo]
    split
    · exact List.prefix_append [a] l
    · exact List.prefix_cons_inj a |>.2 (upTo_begins p l)

theorem upTo_of_split {α : Type} {p : α → Bool} {front : List α} (hfront : ∀ b ∈ front, p b = false) {a : α}
    (ha : p a = true) (back : List α) : upTo p (front ++ a :: back) = front ++ [a] := by
  have hany : front.any p = false := List.any_eq_false.2 fun b hb => by simp [hfront b hb]
  rw [upTo_append, hany, if_neg Bool.false_ne_true, upTo, if_pos ha]

theorem begins_upTo {α : Type} {p : α → Bool} {front : List α} (hfront : ∀ b ∈ front, p b = false) (back : List α) :
    front <+: upTo p (front ++ back) := by
  have hany : front.any p = false := List.any_eq_false.2 fun b hb => by simp [hfront b hb]
  rw [upTo_append, hany, if_neg Bool.false_ne_true]
  exact List.prefix_append front _

theorem Delivery.violation?_eq_some {d : Delivery} {v : Violation} :
    d.violation? = some v ↔ d.fault = some (.contract v.reason) ∧ d.rule = v.rule := by
  obtain ⟨_, rule, _, _, _, _, fault⟩ := d
  obtain ⟨rule', reason⟩ := v
  cases fault with
  | none => simp [Delivery.violation?]
  | some fault => cases fault <;> simp [Delivery.violation?, and_comm]

theorem Delivery.violation?_eq_none {d : Delivery} :
    d.violation? = none ↔ ∀ reason, d.fault ≠ some (.contract reason) := by
  constructor
  · intro h reason hfault
    have hv : d.violation? = some ⟨d.rule, reason⟩ := Delivery.violation?_eq_some.2 ⟨hfault, rfl⟩
    rw [h] at hv
    cases hv
  · intro h
    cases hv : d.violation? with
    | none => rfl
    | some v => exact absurd (Delivery.violation?_eq_some.1 hv).1 (h v.reason)

/-! ## Calls that are passed over -/

/-- Whether a call tells of a new record, or of the end. -/
def Call.opens : Call → Bool
  | .record .. | .finish => true
  | _ => false

theorem Protocol.opens_of_head? {settings : Settings} {files : List RecordFile} :
    ∀ g ∈ Protocol.reference settings files, ∀ call ∈ g.calls.head?, call.opens = true := by
  intro g hg call hc
  rcases List.mem_append.1 hg with hg | hg
  · obtain ⟨p, _, hg⟩ := List.mem_flatMap.1 hg
    obtain ⟨q, _, rfl⟩ := List.mem_map.1 hg
    cases hc
    rfl
  · rw [List.mem_singleton.1 hg] at hc
    cases hc
    rfl

namespace Rule

variable (r : Rule) (reason : String)

/-- The same rule, but that it takes every further call on a record on which it has failed as a violation. -/
def strict : Rule where
  State := Bool × r.State
  name := r.name
  initial := (false, r.initial)
  step ctx call s :=
    if s.1 && !call.opens then ⟨s, [], some (.contract reason)⟩
    else
      let reply := r.step ctx call s.2
      ⟨(reply.fault.isSome, reply.state), reply.findings, reply.fault⟩

/-- The state of the strict rule, with what it knows of the record at hand. -/
def guarded (failed : Bool) (s : r.State) : (r.strict reason).State := (failed, s)

theorem step_strict (g : Group) {call : Call} {failed : Bool} (h : (failed && !call.opens) = false) (s : r.State) :
    (r.strict reason).step g.context call (r.guarded reason failed s) =
      ⟨r.guarded reason (r.step g.context call s).fault.isSome (r.step g.context call s).state,
        (r.step g.context call s).findings, (r.step g.context call s).fault⟩ :=
  if_neg (by rw [guarded, h]; exact Bool.false_ne_true)

/-- **A strict rule is never called where it would take offence**: from a first call on that may be made, it answers as
the rule does. -/
theorem part_strict (i : Nat) (g : Group) : ∀ (calls : List Call) (failed : Bool) (s : r.State),
    (∀ call ∈ calls.head?, (failed && !call.opens) = false) →
      (r.strict reason).part i g calls (r.guarded reason failed s) = r.part i g calls s ∧
      ∃ failed', (r.strict reason).stateAfter g calls (r.guarded reason failed s) =
        r.guarded reason failed' (r.stateAfter g calls s)
  | [], failed, _, _ => ⟨rfl, failed, rfl⟩
  | call :: calls, failed, s, h => by
    have hstep := r.step_strict reason g (h call rfl) s
    have hdeliver : (r.strict reason).deliver i g call (r.guarded reason failed s) = r.deliver i g call s := by
      rw [deliver, hstep]
      rfl
    rw [part, part, stateAfter, stateAfter, hdeliver, hstep]
    dsimp only
    cases hf : (r.step g.context call s).fault.isSome with
    | true => exact ⟨rfl, true, rfl⟩
    | false =>
      obtain ⟨hpart, failed', hstate⟩ := part_strict i g calls false (r.step g.context call s).state fun _ _ => rfl
      rw [if_neg Bool.false_ne_true, if_neg Bool.false_ne_true, if_neg Bool.false_ne_true, if_neg Bool.false_ne_true,
        hpart, hstate]
      exact ⟨rfl, failed', rfl⟩

theorem parts_strict (i : Nat) : ∀ (gs : List Group) (failed : Bool) (s : r.State),
    (∀ g ∈ gs, ∀ call ∈ g.calls.head?, call.opens = true) →
      (r.strict reason).parts i gs (r.guarded reason failed s) = r.parts i gs s
  | [], _, _, _ => rfl
  | g :: gs, failed, s, h => by
    have hhead : ∀ call ∈ g.calls.head?, (failed && !call.opens) = false := fun call hc => by
      rw [h g List.mem_cons_self call hc, Bool.not_true, Bool.and_false]
    obtain ⟨hpart, failed', hstate⟩ := r.part_strict reason i g g.calls failed s hhead
    rw [parts, parts, hpart, hstate, parts_strict i gs failed' _ fun g' hg => h g' (List.mem_cons_of_mem g hg)]

end Rule

namespace Run

theorem due_strict (rules : List Rule) (reason : String) {gs : List Group}
    (h : ∀ g ∈ gs, ∀ call ∈ g.calls.head?, call.opens = true) : due (rules.map (·.strict reason)) gs = due rules gs := by
  rw [due, due, List.zipIdx_map, List.map_map]
  exact congrArg (inTurn gs) (List.map_congr_left fun p _ => p.1.parts_strict reason p.2 gs false p.1.initial h)

end Run

/-! ## Calls in their order -/

theorem UpToFault.told_begins {i : Nat} {rule : String} {g : Group} {ds : List Delivery} (h : UpToFault i rule g ds) :
    ds.map Delivery.told <+: g.calls.map fun call => (i, rule, g.context, g.record, call) := by
  rw [h.map_told]
  exact h.calls.map _

namespace Run

/-- **What is due is told in the order of the calls, and of the rules at each**, some of it left out. -/
theorem told_due_sublist (rules : List Rule) (gs : List Group) :
    ((due rules gs).map Delivery.told).Sublist
      (gs.flatMap fun g => g.calls.flatMap fun call =>
        rules.zipIdx.map fun (r, i) => (i, r.name, g.context, g.record, call)) := by
  rw [due, map_inTurn, ← inTurn_full rules.zipIdx
    (fun (p : Rule × Nat) g call => (p.2, p.1.name, g.context, g.record, call)), List.map_map]
  refine inTurn_sublist gs ?_
  rw [List.forall₂_map_left_iff, List.forall₂_map_right_iff, List.forall₂_same]
  intro p _
  show List.Forall₂ _ ((p.1.parts p.2 gs p.1.initial).map (List.map Delivery.told)) _
  rw [List.forall₂_map_left_iff, List.forall₂_map_right_iff]
  exact (p.1.parts_upToFault p.2 gs p.1.initial).flip.imp fun _ _ h => h.told_begins

/-! ## The end of a run -/

theorem of_eq (settings : Settings) (rules : List Rule) (files : List RecordFile) :
    Run.of settings rules files =
      ⟨upTo Delivery.violates (due rules (Protocol.reference settings files)),
        (due rules (Protocol.reference settings files)).findSome? Delivery.violation?⟩ := by
  obtain ⟨hlog, hv⟩ := of_follows settings rules files
  rw [Protocol.groups_eq_reference] at hlog hv
  rw [← hlog, ← hv]

theorem outcome_eq_error {run : Run} {v : Violation} : run.outcome = .error v ↔ run.violation = some v := by
  unfold outcome
  cases run.violation <;> simp

/-- **A run ends with its first violation.**  It is ended exactly if a call that is made comes back as one.  That call
is the last one, none before it comes back so, and the run is ended with the name of its rule and with its reason; had
the call not failed, the same calls up to it would have been made, and others after it.  All calls are made in the order
of the stream and, at each, of the rules.  Calls that are passed over end nothing: the run is the same if every rule
takes any further call on a record on which it has failed as a violation. -/
theorem violations_end_runs (settings : Settings) (rules : List Rule) (files : List RecordFile) :
    let run := Run.of settings rules files
    ((∃ v, run.outcome = .error v) ↔ ∃ d ∈ run.log, ∃ reason, d.fault = some (.contract reason)) ∧
    (∀ v, run.outcome = .error v → ∃ front d r,
      run.log = front ++ [d] ∧ d.fault = some (.contract v.reason) ∧ rules[d.seat]? = some r ∧ v.rule = r.name ∧
      (∀ e ∈ front, ∀ reason, e.fault ≠ some (.contract reason)) ∧
      ∀ next : r.State, front ++ [{ d with fault := none }] <+:
        (Run.of settings (rules.set d.seat (r.pardon (front.countP (·.seat == d.seat)) next)) files).log) ∧
    (run.log.map Delivery.told).Sublist
      ((Protocol.reference settings files).flatMap fun g => g.calls.flatMap fun call =>
        rules.zipIdx.map fun (r, i) => (i, r.name, g.context, g.record, call)) ∧
    ∀ reason, Run.of settings (rules.map (·.strict reason)) files = run := by
  intro run
  have hrun : run = ⟨upTo Delivery.violates (due rules (Protocol.reference settings files)),
      (due rules (Protocol.reference settings files)).findSome? Delivery.violation?⟩ := of_eq settings rules files
  have hend : ∀ v, run.outcome = .error v → ∃ front d back,
      due rules (Protocol.reference settings files) = front ++ d :: back ∧ run.log = front ++ [d] ∧
      d.violation? = some v ∧ ∀ e ∈ front, e.violation? = none := fun v hv => by
    have hfind := outcome_eq_error.1 hv
    rw [hrun] at hfind
    obtain ⟨front, d, back, hdue, hd, hfront⟩ := List.findSome?_eq_some_iff.1 hfind
    refine ⟨front, d, back, hdue, ?_, hd, hfront⟩
    rw [hrun, hdue]
    exact upTo_of_split (fun e he => by rw [Delivery.violates, hfront e he]; rfl)
      (by rw [Delivery.violates, hd]; rfl) back
  refine ⟨⟨?_, ?_⟩, fun v hv => ?_, ?_, fun reason => ?_⟩
  · rintro ⟨v, hv⟩
    obtain ⟨front, d, _, _, hlog, hd, _⟩ := hend v hv
    refine ⟨d, ?_, v.reason, (Delivery.violation?_eq_some.1 hd).1⟩
    rw [hlog]
    exact List.mem_append_right front (List.mem_singleton.2 rfl)
  · rintro ⟨d, hd, reason, hfault⟩
    have hdue : d ∈ due rules (Protocol.reference settings files) := by
      rw [hrun] at hd
      exact mem_of_mem_upTo hd
    have hv : d.violation? = some ⟨d.rule, reason⟩ := Delivery.violation?_eq_some.2 ⟨hfault, rfl⟩
    have hsome : run.violation.isSome = true := by
      rw [hrun, ← any_violates, List.any_eq_true]
      exact ⟨d, hdue, by rw [Delivery.violates, hv]; rfl⟩
    obtain ⟨v, hv⟩ := Option.isSome_iff_exists.1 hsome
    exact ⟨v, outcome_eq_error.2 hv⟩
  · obtain ⟨front, d, back, hdue, hlog, hd, hfront⟩ := hend v hv
    obtain ⟨hfault, hname⟩ := Delivery.violation?_eq_some.1 hd
    obtain ⟨i, r, hr, hpart⟩ := mem_due (hdue ▸ List.mem_append_right front List.mem_cons_self)
    obtain ⟨hseat, hrule⟩ := r.addressed_of_mem_parts i hpart
    subst hseat
    refine ⟨front, d, r, hlog, hfault, hr, hname.symm.trans hrule,
      fun e he => Delivery.violation?_eq_none.1 (hfront e he), fun next => ?_⟩
    obtain ⟨back', hback⟩ := due_pardon hdue rfl hr next
    have hkept : ∀ e ∈ front ++ [{ d with fault := none }], e.violates = false := fun e he => by
      rcases List.mem_append.1 he with he | he
      · rw [Delivery.violates, hfront e he]
        rfl
      · rw [List.mem_singleton.1 he]
        rfl
    have := begins_upTo hkept back'
    rw [List.append_assoc, List.singleton_append, ← hback] at this
    rw [of_eq]
    exact this
  · rw [hrun]
    exact ((upTo_begins Delivery.violates _).map Delivery.told).sublist.trans (told_due_sublist rules _)
  · rw [of_eq, due_strict rules reason Protocol.opens_of_head?, ← hrun]

/-- A rule fails on the first of two references and misses the second one, at which it would find its calls out of
order; at the same reference in the next cell it does. -/
theorem violation_on_second_record :
    let probe : Rule := .stateless "probe" fun _ call =>
      match call with
      | .reference _ _ id _ => ([], some (if id = "rock" then .invalid "no rock" else .contract "no tree"))
      | _ => ([], none)
    let files := [⟨"base.json", [.cell { references := [{ id := "Rock" }, { id := "Tree" }] },
      .cell { references := [{ id := "Tree" }, { id := "Rock" }] }]⟩]
    let run := Run.of {} [probe, Rules.workNotes] files
    run.outcome = .error ⟨"probe", "no tree"⟩ ∧ run.log.length = 8 ∧
    ∃ front d, run.log = front ++ [d] ∧ ∀ e ∈ front, ∀ reason, e.fault ≠ some (.contract reason) := by
  intro probe files run
  have houtcome : run.outcome = .error ⟨"probe", "no tree"⟩ := outcome_eq_error.2 (by decide +kernel)
  obtain ⟨front, d, _, hlog, _, _, _, hfront, _⟩ := (violations_end_runs {} [probe, Rules.workNotes] files).2.1 _ houtcome
  exact ⟨houtcome, by decide +kernel, front, d, hlog, hfront⟩

end Run

end WorldAudit
