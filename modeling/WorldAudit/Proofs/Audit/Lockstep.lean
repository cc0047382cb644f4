import WorldAudit.Proofs.Audit.Part
import WorldAudit.Proofs.Audit.Rows
/-!
# Lockstep — a run as the parts of its rules

The deliveries of a run are the parts of its rules, read group by group, in a group call by call, and in a call rule by
rule (`of_follows`).  A run that is ended has made them up to the first violation.
-/
namespace WorldAudit

/-! ## Lists up to an element -/

/-- A list up to and with the first element of a kind; all of it if there is none. -/
def upTo {α : Type} (p : α → Bool) : List α → List α
  | [] => []
  | a :: l => if p a then [a] else a :: upTo p l

theorem upTo_append {α : Type} (p : α → Bool) (l m : List α) :
    upTo p (l ++ m) = if l.any p then upTo p l else l ++ upTo p m := by
  induction l with
  | nil => rfl
  | cons a l ih =>
    rw [List.cons_append, upTo, upTo, ih, List.any_cons]
    cases p a <;> cases l.any p <;> rfl

theorem upTo_eq_self {α : Type} {p : α → Bool} : ∀ {l : List α}, (∀ a ∈ upTo p l, p a = false) → upTo p l = l
  | [], _ => rfl
  | a :: l, h => by
    rw [upTo] at h ⊢
    cases ha : p a with
    | true => rw [ha] at h; rw [h a (List.mem_singleton.2 rfl)] at ha; cases ha
    | false =>
      rw [ha, if_neg Bool.false_ne_true] at h
      exact congrArg (a :: ·) (upTo_eq_self fun b hb => h b (List.mem_cons_of_mem _ hb))

theorem mem_of_mem_upTo {α : Type} {p : α → Bool} {b : α} : ∀ {l : List α}, b ∈ upTo p l → b ∈ l
  | [], h => h
  | a :: l, h => by
    rw [upTo] at h
    split at h
    · rw [List.mem_singleton.1 h]; exact List.mem_cons_self
    · rcases List.mem_cons.1 h with rfl | h
      · exact List.mem_cons_self
      · exact List.mem_cons_of_mem _ (mem_of_mem_upTo h)

/-! ## Progress along a plan -/

def Delivery.violates (d : Delivery) : Bool := d.violation?.isSome

/-- **A progress follows a plan**: it has made the planned deliveries up to the first violation, which has ended it,
and without one it has come to the end of the plan with the seats `after`. -/
structure Progress.Follows (p : Progress) (plan : List Delivery) (after : List Seat) : Prop where
  log : p.log = upTo Delivery.violates plan
  violation : p.violation = plan.findSome? Delivery.violation?
  seats : p.violation = none → p.seats = after

theorem any_violates (plan : List Delivery) :
    plan.any Delivery.violates = (plan.findSome? Delivery.violation?).isSome := by
  induction plan with
  | nil => rfl
  | cons d plan ih =>
    rw [List.any_cons, List.findSome?_cons, ih, Delivery.violates]
    cases d.violation? <;> rfl

theorem Progress.follows_nil (seats : List Seat) : Progress.Follows ⟨seats, [], none⟩ [] seats :=
  ⟨rfl, rfl, fun _ => rfl⟩

theorem Progress.Follows.andThen {p : Progress} {plan plan' : List Delivery} {after after' : List Seat}
    {next : List Seat → Progress} (hp : p.Follows plan after) (hn : (next after).Follows plan' after') :
    (p.andThen next).Follows (plan ++ plan') after' := by
  unfold Progress.andThen
  have hany : plan.any Delivery.violates = p.violation.isSome := by rw [any_violates, hp.violation]
  cases hv : p.violation with
  -- `next` is not tried, and what it would do is behind the first violation of the whole plan
  | some v =>
    rw [hv] at hany
    have hfind : plan.findSome? Delivery.violation? = some v := by rw [← hp.violation, hv]
    refine ⟨?_, ?_, fun h => ?_⟩
    · rw [upTo_append, hany]; exact hp.log
    · rw [List.findSome?_append, hfind]; exact hv
    · exact absurd (hv.symm.trans h) (by simp)
  | none =>
    rw [hv] at hany
    have hfind : plan.findSome? Delivery.violation? = none := by rw [← hp.violation, hv]
    have hall : upTo Delivery.violates plan = plan := by
      have := upTo_append Delivery.violates plan []
      rwa [List.append_nil, hany, if_neg (by simp), upTo, List.append_nil] at this
    rw [hp.seats hv]
    refine ⟨?_, ?_, hn.seats⟩
    · rw [upTo_append, hany, ← hn.log]
      show p.log ++ _ = _
      rw [hp.log, hall]
      rfl
    · rw [List.findSome?_append, hfind]; exact hn.violation

/-! ## Seats -/

namespace Seat

/-- A seat's answer to a call, unless it is passed over. -/
def answer? (g : Group) (call : Call) (i : Nat) (s : Seat) : Option Delivery :=
  if s.failed then none else some (s.rule.deliver i g call s.state)

def next (g : Group) (call : Call) (s : Seat) : Seat :=
  if s.failed then s
  else ⟨s.rule, (s.rule.step g.context call s.state).state, (s.rule.step g.context call s.state).fault.isSome⟩

def after (g : Group) (calls : List Call) (s : Seat) : Seat := calls.foldl (fun s call => s.next g call) s

def part (g : Group) (calls : List Call) (i : Nat) (s : Seat) : List Delivery :=
  if s.failed then [] else s.rule.part i g calls s.state

theorem head?_part (g : Group) (call : Call) (calls : List Call) (i : Nat) (s : Seat) :
    (s.part g (call :: calls) i).head? = s.answer? g call i := by
  unfold part answer?
  cases s.failed <;> rfl

theorem tail_part (g : Group) (call : Call) (calls : List Call) (i : Nat) (s : Seat) :
    (s.part g (call :: calls) i).tail = (s.next g call).part g calls i := by
  obtain ⟨r, st, failed⟩ := s
  cases failed <;> rfl

theorem after_of_failed (g : Group) (calls : List Call) (r : Rule) (st : r.State) :
    after g calls ⟨r, st, true⟩ = ⟨r, st, true⟩ := by
  induction calls with
  | nil => rfl
  | cons call calls ih => exact ih

theorem after_eq (g : Group) : ∀ (calls : List Call) (r : Rule) (st : r.State),
    ∃ failed, after g calls ⟨r, st, false⟩ = ⟨r, r.stateAfter g calls st, failed⟩
  | [], _, _ => ⟨false, rfl⟩
  | call :: calls, r, st => by
    show ∃ failed, after g calls ⟨r, (r.step g.context call st).state, (r.step g.context call st).fault.isSome⟩ = _
    rw [Rule.stateAfter]
    cases (r.step g.context call st).fault.isSome with
    | true => exact ⟨true, after_of_failed g calls r _⟩
    | false => exact after_eq g calls r _

/-- A seat's parts of groups, at each of which it is fresh. -/
def parts (gs : List Group) (i : Nat) (s : Seat) : List (List Delivery) := s.rule.parts i gs s.state

theorem headD_parts (g : Group) (gs : List Group) (i : Nat) (s : Seat) :
    (s.parts (g :: gs) i).headD [] = s.fresh.part g g.calls i := rfl

theorem tail_parts (g : Group) (gs : List Group) (i : Nat) (s : Seat) :
    (s.parts (g :: gs) i).tail = (s.fresh.after g g.calls).parts gs i := by
  obtain ⟨failed, h⟩ := after_eq g g.calls s.rule s.state
  rw [show s.fresh = ⟨s.rule, s.state, false⟩ from rfl, h]
  rfl

end Seat

/-! ## A run follows the parts of its rules -/

namespace Run

def row (g : Group) (call : Call) (i : Nat) (seats : List Seat) : List Delivery :=
  (seats.zipIdx i).filterMap fun (s, k) => s.answer? g call k

theorem row_cons (g : Group) (call : Call) (i : Nat) (s : Seat) (seats : List Seat) :
    row g call i (s :: seats) = (s.answer? g call i).toList ++ row g call (i + 1) seats := by
  unfold row
  rw [List.zipIdx_cons, List.filterMap_cons]
  dsimp only
  cases s.answer? g call i <;> rfl

section Offer

variable {g : Group} {call : Call} {i : Nat} {s : Seat} {seats : List Seat}

theorem offer_failed (h : s.failed = true) :
    offer g call i (s :: seats) = (offer g call (i + 1) seats).behind s := by
  rw [offer, if_pos h]

theorem offer_violated (h : s.failed = false) {v : Violation}
    (hv : (s.rule.deliver i g call s.state).violation? = some v) :
    offer g call i (s :: seats) = ⟨s.next g call :: seats, [s.rule.deliver i g call s.state], some v⟩ := by
  unfold Rule.deliver at hv
  dsimp only at hv
  rw [offer, h, if_neg Bool.false_ne_true, Seat.next, h, if_neg Bool.false_ne_true]
  simp only [hv]
  rfl

theorem offer_kept (h : s.failed = false) (hv : (s.rule.deliver i g call s.state).violation? = none) :
    offer g call i (s :: seats) =
      ((offer g call (i + 1) seats).behind (s.next g call)).after (s.rule.deliver i g call s.state) := by
  unfold Rule.deliver at hv
  dsimp only at hv
  rw [offer, h, if_neg Bool.false_ne_true, Seat.next, h, if_neg Bool.false_ne_true]
  simp only [hv]
  rfl

end Offer

/-- **A call goes to the seats in their order**; those that have failed are passed over. -/
theorem offer_follows (g : Group) (call : Call) : ∀ (i : Nat) (seats : List Seat),
    (offer g call i seats).Follows (row g call i seats) (seats.map (Seat.next g call))
  | _, [] => Progress.follows_nil []
  | i, s :: seats => by
    have ih := offer_follows g call (i + 1) seats
    rw [row_cons, List.map_cons, Seat.answer?]
    cases hs : s.failed with
    | true =>
      rw [offer_failed hs, if_pos rfl, Option.toList_none, List.nil_append, Seat.next, if_pos hs]
      exact ⟨ih.log, ih.violation, fun h => congrArg _ (ih.seats h)⟩
    | false =>
      rw [if_neg Bool.false_ne_true, Option.toList_some, List.singleton_append]
      cases hv : (s.rule.deliver i g call s.state).violation? with
      | some v =>
        rw [offer_violated hs hv]
        refine ⟨?_, ?_, fun h => nomatch h⟩
        · rw [upTo, Delivery.violates, hv, Option.isSome_some, if_pos rfl]
        · rw [List.findSome?_cons, hv]
      | none =>
        rw [offer_kept hs hv]
        refine ⟨?_, ?_, fun h => congrArg _ (ih.seats h)⟩
        · rw [upTo, Delivery.violates, hv, Option.isSome_none, if_neg Bool.false_ne_true, ← ih.log]
          rfl
        · rw [List.findSome?_cons, hv, ← ih.violation]
          rfl

theorem heads_rows (g : Group) (call : Call) (calls : List Call) (i : Nat) (seats : List Seat) :
    ((seats.zipIdx i).map fun (s, k) => s.part g (call :: calls) k).filterMap List.head? = row g call i seats := by
  rw [List.filterMap_map]
  exact congrArg (List.filterMap · _) (funext fun p => p.1.head?_part g call calls p.2)

theorem tails_rows (g : Group) (call : Call) (calls : List Call) (i : Nat) (seats : List Seat) :
    ((seats.zipIdx i).map fun (s, k) => s.part g (call :: calls) k).map List.tail =
      ((seats.map (Seat.next g call)).zipIdx i).map fun (s, k) => s.part g calls k := by
  rw [List.zipIdx_map, List.map_map, List.map_map]
  exact List.map_congr_left fun p _ => p.1.tail_part g call calls p.2

/-- **The calls of a group are made one after another**, each of them to all seats. -/
theorem offerAll_follows (g : Group) : ∀ (calls : List Call) (seats : List Seat),
    (offerAll g calls seats).Follows (columns calls.length (seats.zipIdx.map fun (s, k) => s.part g calls k))
      (seats.map (Seat.after g calls))
  | [], seats => by
    rw [show seats.map (Seat.after g []) = seats from List.map_id seats]
    exact Progress.follows_nil seats
  | call :: calls, seats => by
    have hrest := offerAll_follows g calls (seats.map (Seat.next g call))
    rw [List.map_map] at hrest
    rw [List.length_cons, columns, heads_rows, tails_rows]
    exact (offer_follows g call 0 seats).andThen hrest

/-- **Groups are played one after another**, every seat being fresh at the start of each. -/
theorem play_follows : ∀ (gs : List Group) (seats : List Seat),
    ∃ after, (play gs seats).Follows (inTurn gs (seats.zipIdx.map fun (s, k) => s.parts gs k)) after
  | [], seats => ⟨seats, Progress.follows_nil seats⟩
  | g :: gs, seats => by
    have hg := offerAll_follows g g.calls (seats.map Seat.fresh)
    obtain ⟨after, hrest⟩ := play_follows gs ((seats.map Seat.fresh).map (Seat.after g g.calls))
    refine ⟨after, ?_⟩
    have hheads : (seats.zipIdx.map fun (s, k) => s.parts (g :: gs) k).map (·.headD []) =
        (seats.map Seat.fresh).zipIdx.map fun (s, k) => s.part g g.calls k := by
      rw [List.zipIdx_map, List.map_map, List.map_map]
      exact List.map_congr_left fun p _ => p.1.headD_parts g gs p.2
    -- the later parts look at a seat's rule and state only, whether or not it has failed on `g`
    have htails : (seats.zipIdx.map fun (s, k) => s.parts (g :: gs) k).map List.tail =
        ((seats.map Seat.fresh).map (Seat.after g g.calls)).zipIdx.map fun (s, k) => s.parts gs k := by
      rw [List.map_map, List.map_map, List.zipIdx_map, List.map_map]
      exact List.map_congr_left fun p _ => p.1.tail_parts g gs p.2
    rw [inTurn, hheads, htails]
    exact hg.andThen hrest

theorem fits_of_upToFault {i : Nat} {rule : String} {gs : List Group} {ps : List (List Delivery)}
    (h : List.Forall₂ (UpToFault i rule) gs ps) : Fits Delivery.seat i gs ps :=
  h.imp fun _ _ hds => ⟨hds.length_le, fun d hd => (hds.addressed d hd).1⟩

/-- The deliveries that rules are due on groups, in the order of a run. -/
def due (rules : List Rule) (gs : List Group) : List Delivery :=
  inTurn gs (rules.zipIdx.map fun (r, i) => r.parts i gs r.initial)

/-- **Of the deliveries that are due, those to seat `i` are the parts of its rule**, whatever the other rules are. -/
theorem filter_due {rules : List Rule} {i : Nat} {r : Rule} (gs : List Group) (hr : rules[i]? = some r) :
    (due rules gs).filter (·.seat == i) = (r.parts i gs r.initial).flatten := by
  have hseat : ∀ p ∈ rules.zipIdx, ∀ d ∈ (p.1.parts p.2 gs p.1.initial).flatten, (d.seat == i) = (p.2 == i) :=
    fun p _ d hd => by rw [(p.1.addressed_of_mem_parts p.2 hd).1]
  obtain ⟨front, back, rfl, rfl⟩ := exists_of_getElem? hr
  rw [due, filter_inTurn gs _ _ hseat, (filter_zipIdx front r back).1, List.map_singleton]
  exact inTurn_singleton (fits_of_upToFault (r.parts_upToFault front.length gs r.initial))

theorem mem_due {rules : List Rule} {gs : List Group} {d : Delivery} (h : d ∈ due rules gs) :
    ∃ (i : Nat) (r : Rule), rules[i]? = some r ∧ d ∈ (r.parts i gs r.initial).flatten := by
  obtain ⟨ps, hps, hd⟩ := mem_inTurn h
  obtain ⟨p, hp, rfl⟩ := List.mem_map.1 hps
  exact ⟨p.2, p.1, List.mem_zipIdx_iff_getElem?.1 hp, hd⟩

/-- **A rule that is alone is due its own parts.** -/
theorem due_singleton (r : Rule) (gs : List Group) : due [r] gs = (r.parts 0 gs r.initial).flatten :=
  inTurn_singleton (fits_of_upToFault (r.parts_upToFault 0 gs r.initial))

/-- **A run makes the deliveries that are due up to the first violation**, and that violation is what ends it. -/
theorem of_follows (settings : Settings) (rules : List Rule) (files : List RecordFile) :
    (Run.of settings rules files).log = upTo Delivery.violates (due rules (Stream.groups settings files)) ∧
    (Run.of settings rules files).violation =
      (due rules (Stream.groups settings files)).findSome? Delivery.violation? := by
  obtain ⟨after, h⟩ := play_follows (Stream.groups settings files) (rules.map Seat.start)
  have hparts : ((rules.map Seat.start).zipIdx.map fun (s, k) => s.parts (Stream.groups settings files) k) =
      rules.zipIdx.map fun (r, i) => r.parts i (Stream.groups settings files) r.initial := by
    rw [List.zipIdx_map, List.map_map]
    rfl
  rw [hparts] at h
  exact ⟨h.log, h.violation⟩

/-- **Where no due delivery violates, a run makes them all.** -/
theorem log_eq_due {settings : Settings} {rules : List Rule} {files : List RecordFile}
    (h : ∀ d ∈ due rules (Stream.groups settings files), d.violation? = none) :
    (Run.of settings rules files).log = due rules (Stream.groups settings files) ∧
    (Run.of settings rules files).violation = none := by
  obtain ⟨hlog, hv⟩ := of_follows settings rules files
  refine ⟨?_, ?_⟩
  · rw [hlog]
    exact upTo_eq_self fun d hd => by rw [Delivery.violates, h d (mem_of_mem_upTo hd)]; rfl
  · rw [hv]
    exact List.findSome?_eq_none_iff.2 h

theorem log_eq_due_of_log {settings : Settings} {rules : List Rule} {files : List RecordFile}
    (h : ∀ d ∈ (Run.of settings rules files).log, d.violation? = none) :
    (Run.of settings rules files).log = due rules (Stream.groups settings files) ∧
    (Run.of settings rules files).violation = none := by
  have hlog := (of_follows settings rules files).1
  have hall : upTo Delivery.violates (due rules (Stream.groups settings files)) =
      due rules (Stream.groups settings files) :=
    upTo_eq_self fun d hd => by rw [Delivery.violates, h d (hlog ▸ hd)]; rfl
  refine log_eq_due fun d hd => h d ?_
  rw [hlog, hall]
  exact hd

theorem kept_of_violation {settings : Settings} {rules : List Rule} {files : List RecordFile}
    (h : (Run.of settings rules files).violation = none) :
    ∀ d ∈ (Run.of settings rules files).log, d.violation? = none := fun d hd => by
  obtain ⟨hlog, hv⟩ := of_follows settings rules files
  rw [h, eq_comm, List.findSome?_eq_none_iff] at hv
  rw [hlog] at hd
  exact hv d (mem_of_mem_upTo hd)

theorem outcome_eq_ok {run : Run} (h : run.violation = none) : run.outcome = .ok run.report := by
  unfold outcome
  rw [h]

theorem report_of_outcome {run : Run} {report : List Finding} (h : run.outcome = .ok report) : run.report = report := by
  unfold outcome at h
  split at h
  · cases h
  · exact Except.ok.inj h

end Run
end WorldAudit
