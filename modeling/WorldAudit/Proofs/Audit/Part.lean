import Mathlib.Data.List.Forall2
import WorldAudit.Audit.Run
/-!
# Part — what one rule is told, and what it answers

A rule's part in a run depends on the rule and on the groups only.  In every group it is called up to the first call
that it fails on (`part_upToFault`); what state it is left in counts from the next group on.
-/
namespace WorldAudit

/-- **The deliveries of a group up to the first failure**: calls from its start on, all of them unless the last one
failed, to one rule, with the context and the record of the group. -/
structure UpToFault (seat : Nat) (rule : String) (g : Group) (ds : List Delivery) : Prop where
  calls : ds.map Delivery.call <+: g.calls
  addressed : ∀ d ∈ ds, d.seat = seat ∧ d.rule = rule ∧ d.context = g.context ∧ d.record = g.record
  faultLast : ∀ d ∈ ds.dropLast, d.fault = none
  complete : (∀ d ∈ ds, d.fault = none) → ds.map Delivery.call = g.calls

namespace Rule

variable (r : Rule) (i : Nat) (g : Group)

/-- A call of a group to a rule at seat `i`, with its answer. -/
def deliver (call : Call) (s : r.State) : Delivery :=
  let reply := r.step g.context call s
  ⟨i, r.name, g.context, g.record, call, reply.findings, reply.fault⟩

/-- A rule's part of some calls of a group: they are made to it one after another until it fails. -/
def part : List Call → r.State → List Delivery
  | [], _ => []
  | call :: calls, s =>
    r.deliver i g call s ::
      if (r.step g.context call s).fault.isSome then [] else part calls (r.step g.context call s).state

/-- The state in which a rule is left by its part of some calls. -/
def stateAfter : List Call → r.State → r.State
  | [], s => s
  | call :: calls, s =>
    if (r.step g.context call s).fault.isSome then (r.step g.context call s).state
    else stateAfter calls (r.step g.context call s).state

/-- A rule's parts of groups, each from the state in which the one before it has left the rule. -/
def parts : List Group → r.State → List (List Delivery)
  | [], _ => []
  | g :: gs, s => r.part i g g.calls s :: parts gs (r.stateAfter g g.calls s)

theorem part_calls : ∀ (calls : List Call) (s : r.State), (r.part i g calls s).map Delivery.call <+: calls
  | [], _ => List.prefix_rfl
  | call :: calls, s => by
    rw [part, List.map_cons]
    refine List.prefix_cons_inj _ |>.2 ?_
    split
    · exact List.nil_prefix
    · exact part_calls calls _

theorem part_addressed : ∀ (calls : List Call) (s : r.State), ∀ d ∈ r.part i g calls s,
    d.seat = i ∧ d.rule = r.name ∧ d.context = g.context ∧ d.record = g.record
  | [], _, _, hd => by cases hd
  | call :: calls, s, d, hd => by
    rw [part] at hd
    rcases List.mem_cons.1 hd with rfl | hd
    · exact ⟨rfl, rfl, rfl, rfl⟩
    · split at hd
      · cases hd
      · exact part_addressed calls _ d hd

theorem part_faultLast : ∀ (calls : List Call) (s : r.State), ∀ d ∈ (r.part i g calls s).dropLast, d.fault = none
  | [], _, _, hd => by cases hd
  | call :: calls, s, d, hd => by
    rw [part] at hd
    split at hd
    · cases hd
    · rename_i hok
      cases hrest : r.part i g calls (r.step g.context call s).state with
      | nil => rw [hrest] at hd; cases hd
      | cons e rest =>
        rw [hrest, List.dropLast_cons_cons, ← hrest] at hd
        rcases List.mem_cons.1 hd with rfl | hd
        · simpa [deliver] using hok
        · exact part_faultLast calls _ d hd

theorem part_complete : ∀ (calls : List Call) (s : r.State),
    (∀ d ∈ r.part i g calls s, d.fault = none) → (r.part i g calls s).map Delivery.call = calls
  | [], _, _ => rfl
  | call :: calls, s, h => by
    rw [part] at h ⊢
    have hok : (r.step g.context call s).fault = none := h _ List.mem_cons_self
    rw [hok] at h ⊢
    rw [List.map_cons]
    exact congrArg _ (part_complete calls _ fun d hd => h d (List.mem_cons_of_mem _ hd))

/-- **A rule is called up to its first failure on a record.** -/
theorem part_upToFault (s : r.State) : UpToFault i r.name g (r.part i g g.calls s) :=
  ⟨r.part_calls i g _ s, r.part_addressed i g _ s, r.part_faultLast i g _ s, r.part_complete i g _ s⟩

/-- **A rule is called on every record**, whatever became of the records before. -/
theorem parts_upToFault : ∀ (gs : List Group) (s : r.State),
    List.Forall₂ (UpToFault i r.name) gs (r.parts i gs s)
  | [], _ => .nil
  | g :: gs, s => .cons (r.part_upToFault i g s) (parts_upToFault gs _)

theorem mem_parts : ∀ (gs : List Group) (s : r.State), ∀ ds ∈ r.parts i gs s, ∃ g ∈ gs, UpToFault i r.name g ds
  | [], _, _, hds => by cases hds
  | g :: gs, s, ds, hds => by
    rcases List.mem_cons.1 hds with rfl | hds
    · exact ⟨g, List.mem_cons_self, r.part_upToFault i g s⟩
    · obtain ⟨g', hg, h⟩ := mem_parts gs _ ds hds
      exact ⟨g', List.mem_cons_of_mem _ hg, h⟩

theorem addressed_of_mem_parts {gs : List Group} {s : r.State} {d : Delivery} (h : d ∈ (r.parts i gs s).flatten) :
    d.seat = i ∧ d.rule = r.name := by
  obtain ⟨ds, hds, hd⟩ := List.mem_flatten.1 h
  obtain ⟨g, _, h⟩ := r.mem_parts i gs s ds hds
  obtain ⟨hseat, hrule, _⟩ := h.addressed d hd
  exact ⟨hseat, hrule⟩

theorem exists_call_of_mem_part {d : Delivery} : ∀ {calls : List Call} {s : r.State}, d ∈ r.part i g calls s →
    ∃ call ∈ calls, ∃ s', d = r.deliver i g call s'
  | [], _, h => by cases h
  | call :: calls, s, h => by
    rw [part] at h
    rcases List.mem_cons.1 h with rfl | h
    · exact ⟨call, List.mem_cons_self, s, rfl⟩
    · split at h
      · cases h
      · obtain ⟨call', hc, h'⟩ := exists_call_of_mem_part h
        exact ⟨call', List.mem_cons_of_mem call hc, h'⟩

/-- A delivery to a rule is its answer to some call of some group. -/
theorem exists_call_of_mem_parts {d : Delivery} : ∀ {gs : List Group} {s : r.State}, d ∈ (r.parts i gs s).flatten →
    ∃ g ∈ gs, ∃ call ∈ g.calls, ∃ s', d = r.deliver i g call s'
  | [], _, h => by cases h
  | g :: gs, s, h => by
    rw [parts, List.flatten_cons] at h
    rcases List.mem_append.1 h with h | h
    · exact ⟨g, List.mem_cons_self, r.exists_call_of_mem_part i g h⟩
    · obtain ⟨g', hg, h'⟩ := exists_call_of_mem_parts h
      exact ⟨g', List.mem_cons_of_mem g hg, h'⟩

theorem exists_part_of_mem {g : Group} : ∀ {gs : List Group}, g ∈ gs → ∀ (s : r.State),
    ∃ s', r.part i g g.calls s' ∈ r.parts i gs s
  | g' :: gs, h, s => by
    rcases List.mem_cons.1 h with rfl | h
    · exact ⟨s, List.mem_cons_self⟩
    · obtain ⟨s', hs⟩ := exists_part_of_mem h (r.stateAfter g' g'.calls s)
      exact ⟨s', List.mem_cons_of_mem _ hs⟩

def stateAfterAll (gs : List Group) (s : r.State) : r.State := gs.foldl (fun s g => r.stateAfter g g.calls s) s

theorem parts_concat (g : Group) : ∀ (gs : List Group) (s : r.State),
    r.parts i (gs ++ [g]) s = r.parts i gs s ++ [r.part i g g.calls (r.stateAfterAll gs s)]
  | [], _ => rfl
  | g' :: gs, s => congrArg (r.part i g' g'.calls s :: ·) (parts_concat g gs (r.stateAfter g' g'.calls s))

end Rule

theorem UpToFault.length_le {seat : Nat} {rule : String} {g : Group} {ds : List Delivery}
    (h : UpToFault seat rule g ds) : ds.length ≤ g.calls.length := by
  rw [← List.length_map Delivery.call]
  exact h.calls.length_le

theorem UpToFault.faults_le_one {seat : Nat} {rule : String} {g : Group} {ds : List Delivery}
    (h : UpToFault seat rule g ds) : (ds.filter (·.fault.isSome)).length ≤ 1 := by
  rcases List.eq_nil_or_concat ds with rfl | ⟨front, d, rfl⟩
  · exact Nat.zero_le 1
  · have hfront : front.filter (·.fault.isSome) = [] := List.filter_eq_nil_iff.2 fun e he => by
      have := h.faultLast e (by simpa using he)
      simp [this]
    rw [List.concat_eq_append, List.filter_append, hfront, List.nil_append]
    exact List.length_filter_le _ [d]

end WorldAudit
