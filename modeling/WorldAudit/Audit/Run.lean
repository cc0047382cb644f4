import WorldAudit.Audit.Rule
import WorldAudit.Audit.Stream
/-!
# Run — the rules at work

Every call goes to every rule in turn before the next call.  A rule that fails is passed over for the rest of the
record and called again from the next one on.  A rule that finds its calls out of order ends the run.  The log of a
run holds every call that was made, and the report is read off the log.
-/
namespace WorldAudit

/-- A rule at its place in a run. -/
structure Seat where
  rule : Rule
  state : rule.State
  /-- Whether it has failed on the record at hand. -/
  failed : Bool

def Seat.start (rule : Rule) : Seat := ⟨rule, rule.initial, false⟩

/-- The seat when the next record comes. -/
def Seat.fresh (s : Seat) : Seat := { s with failed := false }

/-- A call that was made to a rule, and its answer. -/
structure Delivery where
  /-- The place of the rule among the rules. -/
  seat : Nat
  rule : String
  context : Context
  /-- The record at hand; none at the end. -/
  record : Option Record
  call : Call
  findings : List Finding
  fault : Option Rule.Fault

/-- What ended a run before its time. -/
structure Violation where
  rule : String
  reason : String
deriving Repr, DecidableEq

def Violation.message (v : Violation) : String := s!"Rule {v.rule} violated the hook contract: {v.reason}"

def Delivery.violation? (d : Delivery) : Option Violation :=
  match d.fault with
  | some (.contract reason) => some ⟨d.rule, reason⟩
  | _ => none

/-- The finding that a failure turns into. -/
def Delivery.faultFindings (d : Delivery) : List Finding :=
  match d.fault, d.record with
  | none, _ | some (.contract _), _ => []
  | some fault, some record => [.about record fault.message]
  | some fault, none => [⟨"Rule", d.rule, fault.message⟩]

/-- What a call adds to the report. -/
def Delivery.report (d : Delivery) : List Finding := d.findings ++ d.faultFindings

/-- The rules after some calls, the calls in their order, and what has ended the run. -/
structure Progress where
  seats : List Seat
  log : List Delivery
  violation : Option Violation

/-- The same progress after one more seat that was passed over. -/
def Progress.behind (seat : Seat) (p : Progress) : Progress := { p with seats := seat :: p.seats }

/-- The same progress after one more delivery. -/
def Progress.after (d : Delivery) (p : Progress) : Progress := { p with log := d :: p.log }

/-- Goes on from a progress, unless the run has ended. -/
def Progress.andThen (p : Progress) (next : List Seat → Progress) : Progress :=
  if p.violation.isSome then p
  else
    let q := next p.seats
    { q with log := p.log ++ q.log }

namespace Run

/-- Makes a call to the rules from seat `i` on. -/
def offer (g : Group) (call : Call) (i : Nat) : List Seat → Progress
  | [] => ⟨[], [], none⟩
  | s :: rest =>
    if s.failed then (offer g call (i + 1) rest).behind s
    else
      let reply := s.rule.step g.context call s.state
      let after : Seat := ⟨s.rule, reply.state, reply.fault.isSome⟩
      let d : Delivery := ⟨i, s.rule.name, g.context, g.record, call, reply.findings, reply.fault⟩
      match d.violation? with
      | some v => ⟨after :: rest, [d], some v⟩
      | none => ((offer g call (i + 1) rest).behind after).after d

/-- Makes calls of a group. -/
def offerAll (g : Group) : List Call → List Seat → Progress
  | [], seats => ⟨seats, [], none⟩
  | call :: calls, seats => (offer g call 0 seats).andThen (offerAll g calls)

/-- Plays groups, every rule being fresh at the start of each. -/
def play : List Group → List Seat → Progress
  | [], seats => ⟨seats, [], none⟩
  | g :: gs, seats => (offerAll g g.calls (seats.map Seat.fresh)).andThen (play gs)

end Run

/-- A finished run. -/
structure Run where
  log : List Delivery
  violation : Option Violation

/-- The findings in the order in which they came up. -/
def Run.report (r : Run) : List Finding := r.log.flatMap Delivery.report

/-- The report, unless the run was ended. -/
def Run.outcome (r : Run) : Except Violation (List Finding) :=
  match r.violation with
  | some v => .error v
  | none => .ok r.report

/-- Runs rules over files. -/
def Run.of (settings : Settings) (rules : List Rule) (files : List RecordFile) : Run :=
  let p := Run.play (Stream.groups settings files) (rules.map Seat.start)
  ⟨p.log, p.violation⟩

end WorldAudit
